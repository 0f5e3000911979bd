import ClassChart.Proofs.Diagram.Rewriting
import ClassChart.Proofs.Source.WalkOrder

/-!
Generating diagrams twice.  Diagrams may be written into the very directory that is searched
for sources: they are no sources, and new directories do not change the order in which the
old ones are searched.  So a second run reads what the first one read, and writes what is
there.
-/
namespace ClassChart

variable {fs fs' : FileSystem}

namespace SourceFile

theorem asks_readReporting {P : Procedure.Request → Prop} (hreport : ∀ event, P (.report event))
    {root path : String} (hread : P (.read path)) : (readReporting root path).Asks P := by
  have hfrom : (readFrom path root).Asks P := by
    unfold readFrom
    split
    · exact .fail _
    · refine .read hread fun answer => ?_
      cases answer with
      | ok bytes => exact .done _
      | error cause => exact (Procedure.asks_emit (hreport _)).bind fun _ => .done _
  refine hfrom.bind fun file => Procedure.Asks.bind ?_ fun _ => .done file
  induction file.problems with
  | nil => exact .done ()
  | cons problem rest ih => exact (Procedure.asks_emit (hreport _)).bind fun _ => ih

/-- All sources are read as before if they are found and each of them is. -/
theorem run_readAll_eq {root : String} {paths : List String}
    (hpaths : ((pathsBelow root).run fs).result = .ok paths)
    (hpaths' : ((pathsBelow root).run fs').result = .ok paths)
    (hread : ∀ path ∈ paths, fs'.read path = fs.read path) :
    (readAll root).run fs' = { (readAll root).run fs with files := fs' } := by
  have hrest : (do
      let files ← paths.mapM (readReporting root)
      Procedure.emit (.directoryRead files.length root)
      return files : Procedure (List SourceFile)).Asks (Procedure.SameAnswer fs fs') := by
    have hmap : (paths.mapM (readReporting root)).Asks (Procedure.SameAnswer fs fs') :=
      Procedure.asks_mapM fun path hpath =>
        asks_readReporting (fun _ => trivial) (hread path hpath)
    exact hmap.bind fun files => (Procedure.asks_emit trivial).bind fun _ => .done files
  have hsame := hrest.run_eq
  have hfiles : ((pathsBelow root).run fs).files = fs := by rw [run_pathsBelow]
  have hfiles' : ((pathsBelow root).run fs').files = fs' := by rw [run_pathsBelow]
  have hevents : ((pathsBelow root).run fs').events = ((pathsBelow root).run fs).events := by
    rw [run_pathsBelow, run_pathsBelow]
  rw [readAll, Procedure.run_bind_of_ok hpaths, Procedure.run_bind_of_ok hpaths', hfiles, hfiles',
    hevents, hsame]

/-- Reading leaves the files as they are. -/
theorem files_run_readAll (root : String) (fs : FileSystem) :
    ((readAll root).run fs).files = fs := by
  obtain ⟨paths, hpaths⟩ : ∃ paths, ((pathsBelow root).run fs).result = .ok paths := by
    rw [run_pathsBelow]
    exact ⟨_, rfl⟩
  rw [run_readAll_eq hpaths hpaths fun _ _ => rfl]

end SourceFile

namespace Diagram

variable {out : Path} {types : List NamedType}

/-- A diagram is not written where a source is. -/
theorem ne_destination_artifactPath (fs : FileSystem) (type : NamedType) {above : List String}
    {name : String} (hname : isSourceFile name = true) :
    above ++ [name] ≠ fs.destination (type.artifactPath out) := by
  obtain ⟨around, last, hlast⟩ := exists_destination_artifactPath fs type out
  rw [hlast]
  intro heq
  obtain ⟨-, hsame⟩ := List.append_inj' heq rfl
  rw [List.singleton_inj.mp hsame, isSourceFile_artifact] at hname
  contradiction

namespace Undisturbed

variable (h : Undisturbed out types fs fs') {root : String} {tree : Tree ByteArray}
  (hroot : fs.entry? root = some tree)

include h hroot

/-- The same sources are found in the same order. -/
theorem run_pathsBelow :
    ((SourceFile.pathsBelow root).run fs').result =
      ((SourceFile.pathsBelow root).run fs).result := by
  obtain ⟨place, hplace, htree⟩ := FileSystem.entry?_eq_some_iff.mp hroot
  obtain ⟨tree', htree', hsame⟩ := h.sources htree
  have hroot' : fs'.entry? root = some tree' :=
    FileSystem.entry?_eq_some_iff.mpr ⟨place, h.files.locate hplace, htree'⟩
  rw [SourceFile.run_pathsBelow, SourceFile.run_pathsBelow, hroot, hroot', Option.filter_some,
    Option.filter_some, hsame.isDirectory]
  cases tree.isDirectory with
  | false => rfl
  | true => exact congrArg Except.ok (hsame.sources root)

/-- The sources that are found are read as before. -/
theorem read_eq (hwell : fs.root.WellFormed) {path : String} (hpath : path ∈ tree.sources root) :
    fs'.read path = fs.read path := by
  obtain ⟨place, hplace, htree⟩ := FileSystem.entry?_eq_some_iff.mp hroot
  have hinner := (hwell.of_get? htree).1
  obtain ⟨below, ⟨⟨content, hfile⟩, ⟨name, hlast, hsource⟩, -⟩, rfl⟩ :=
    hinner.exists_hasSource hpath
  obtain ⟨above, rfl⟩ := List.getLast?_eq_some_iff.mp hlast
  have hnames := (hinner.of_get? hfile).2
  have hfile : fs.root.get? (place ++ (above ++ [name])) = some (.file content) := by
    rw [Tree.get?_append, htree, Option.bind_some, hfile]
  apply h.files.read_eq h.refusal hplace hnames hfile
  rintro q ⟨type, -, rfl⟩
  rw [← List.append_assoc]
  exact ne_destination_artifactPath fs type hsource

theorem run_readAll (hwell : fs.root.WellFormed) :
    (SourceFile.readAll root).run fs' =
      { (SourceFile.readAll root).run fs with files := fs' } := by
  have hpaths := SourceFile.run_pathsBelow root fs
  rw [hroot, Option.filter_some] at hpaths
  have hresult := congrArg Procedure.Outcome.result hpaths
  refine SourceFile.run_readAll_eq hresult ((h.run_pathsBelow hroot).trans hresult) ?_
  intro path hpath
  split at hpath
  · exact h.read_eq hroot hwell hpath
  · contradiction

end Undisturbed

/-- Read the sources below a directory and write the diagrams of their types. -/
def generate (settings : Settings) (root out : String) : Procedure (List String) := do
  let files ← SourceFile.readAll root
  let catalog ← Procedure.ofLogged (Catalog.ofFiles files)
  writeAll ⟨catalog, settings⟩ out

theorem sortedTypes_eq {d : Diagram} (hsorted : d.catalog.types.Pairwise fun a b =>
    (compare a.qualifiedName b.qualifiedName).isLE = true) : d.sortedTypes = d.catalog.types :=
  List.mergeSort_of_pairwise hsorted

/-- Once the files are read, generating is writing the diagrams of their catalog. -/
theorem run_generate {settings : Settings} {root out : String} {files : List SourceFile}
    (hread : ((SourceFile.readAll root).run fs).result = .ok files) :
    (generate settings root out).run fs =
      { (writeAll ⟨(Catalog.ofFiles files).value, settings⟩ out).run fs with
        events := ((SourceFile.readAll root).run fs).events ++ ((Catalog.ofFiles files).events ++
          ((writeAll ⟨(Catalog.ofFiles files).value, settings⟩ out).run fs).events) } := by
  have hcatalog := Procedure.run_ofLogged (Catalog.ofFiles files) fs
  rw [generate, Procedure.run_bind_of_ok hread, SourceFile.files_run_readAll,
    Procedure.run_bind_of_ok (congrArg Procedure.Outcome.result hcatalog), hcatalog]

/-- Nothing is read, and so nothing is written, if there is no directory to read from. -/
theorem files_run_generate_of_missing {settings : Settings} {root : String} (out : String)
    (hroot : fs.entry? root = none) : ((generate settings root out).run fs).files = fs := by
  have hpaths : ((SourceFile.pathsBelow root).run fs).result = .ok [] := by
    rw [SourceFile.run_pathsBelow, hroot]
    rfl
  have hread : ((SourceFile.readAll root).run fs).result = .ok [] := by
    rw [SourceFile.readAll, Procedure.run_bind_of_ok hpaths]
    rfl
  have hnone : sortedTypes ⟨(Catalog.ofFiles []).value, settings⟩ = [] := List.mergeSort_nil
  have hwrite : ((writeAll ⟨(Catalog.ofFiles []).value, settings⟩ out).run fs).files = fs := by
    rw [writeAll, hnone]
    rfl
  rw [run_generate hread, hwrite]

/-- Generating diagrams again, after it has succeeded, finds the same sources in the same order,
reads the same from them, and has the same outcome: the diagrams and all other files stay
exactly as they are. -/
theorem run_generate_again (hwell : fs.root.WellFormed) {settings : Settings} {root out : String}
    {written : List String} (hrun : ((generate settings root out).run fs).result = .ok written) :
    let left := (generate settings root out).run fs
    ((SourceFile.pathsBelow root).run left.files).result =
        ((SourceFile.pathsBelow root).run fs).result ∧
      ((SourceFile.readAll root).run left.files).result =
        ((SourceFile.readAll root).run fs).result ∧
      (generate settings root out).run left.files = left := by
  intro left
  cases hroot : fs.entry? root with
  | none =>
      have hsame : left.files = fs := files_run_generate_of_missing out hroot
      rw [hsame]
      exact ⟨rfl, rfl, rfl⟩
  | some tree =>
      obtain ⟨files, hread, -⟩ := Procedure.exists_of_result_bind hrun
      have hfirst : left = _ := run_generate hread
      rw [run_generate hread] at hrun
      obtain ⟨hundisturbed, hagain⟩ := run_writeAll_again hrun
      have hfiles : left.files = _ := congrArg Procedure.Outcome.files hfirst
      have hreadAgain := hundisturbed.run_readAll hroot hwell
      rw [← hfiles] at hundisturbed hagain hreadAgain
      have hresult := congrArg Procedure.Outcome.result hreadAgain
      have hevents := congrArg Procedure.Outcome.events hreadAgain
      refine ⟨hundisturbed.run_pathsBelow hroot, hresult, ?_⟩
      rw [run_generate (hresult.trans hread), hevents, hagain, ← hfirst]

/-- The diagrams are written into the directory that is searched, and new directories for
packages come before an old one in it. -/
theorem run_generate_again_among_sources :
    let fs : FileSystem :=
      { root := .directory [("s", .directory
          [("A.java", .file "package a;\nclass A \x7b\x7d\n".toUTF8),
            ("q", .directory [("B.java", .file "package b;\nclass B \x7b\x7d\n".toUTF8)])])] }
    let left := (generate {} "s" "s").run fs
    (fs.root.WellFormed ∧ left.result = .ok ["s/a/A.puml", "s/b/B.puml"]) ∧
      ((SourceFile.pathsBelow "s").run left.files).result = .ok ["s/A.java", "s/q/B.java"] ∧
      (generate {} "s" "s").run left.files = left := by
  intro fs left
  have hwell : fs.root.WellFormed := by
    refine .directory (by decide) (by decide +kernel) (List.forall_mem_singleton.mpr ?_)
    refine .directory (by decide) (by decide +kernel) (List.forall_mem_cons.mpr ⟨.file _, ?_⟩)
    refine List.forall_mem_singleton.mpr (.directory (by decide) (by decide +kernel) ?_)
    exact List.forall_mem_singleton.mpr (.file _)
  have hpaths : ((SourceFile.pathsBelow "s").run fs).result = .ok ["s/A.java", "s/q/B.java"] := by
    have hsource : isSourceFile "A.java" = true ∧ isSourceFile "B.java" = true ∧
        isSkippedDirectory "q" = false := by decide +kernel
    have hpath : entryPath "s" "A.java" = "s/A.java" ∧
        entryPath (entryPath "s" "q") "B.java" = "s/q/B.java" := by decide +kernel
    rw [SourceFile.run_pathsBelow]
    change Except.ok (Tree.sources "s" (.directory _)) = _
    simp [Tree.sources, Tree.sourceNames, Tree.sourcesBelow, Tree.isDirectory, sortByName, hsource,
      hpath]
  let files : List SourceFile :=
    [.ofText "package a;\nclass A \x7b\x7d\n" "A.java",
      .ofText "package b;\nclass B \x7b\x7d\n" "q/B.java"]
  have hread : ((SourceFile.readAll "s").run fs).result = .ok files := by
    rw [SourceFile.readAll, Procedure.run_bind_of_ok hpaths]
    exact eq_ok_of_toOption (by decide +kernel)
  have hresult : left.result = .ok ["s/a/A.puml", "s/b/B.puml"] := by
    have hsorted : sortedTypes ⟨(Catalog.ofFiles files).value, {}⟩ = _ :=
      sortedTypes_eq (by decide +kernel)
    change ((generate {} "s" "s").run fs).result = _
    rw [run_generate hread, writeAll, hsorted]
    exact eq_ok_of_toOption (by decide +kernel)
  obtain ⟨hsame, -, hagain⟩ := run_generate_again hwell hresult
  exact ⟨⟨hwell, hresult⟩, hsame.trans hpaths, hagain⟩

end Diagram

end ClassChart
