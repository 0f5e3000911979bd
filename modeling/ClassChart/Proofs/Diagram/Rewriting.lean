import ClassChart.Proofs.Diagram.Artifact
import ClassChart.Proofs.Source.Walk
import ClassChart.Proofs.Storage.Requests
import ClassChart.Proofs.Storage.Rewriting

/-!
Writing diagrams twice.  Whatever the names of types are, diagrams are not taken for sources,
and what is read again stays as it is.  Several diagrams may have one place; the last of them
is in the file then.  So writing them all again, after that has succeeded, leaves every file
as it is.
-/
namespace ClassChart

variable {fs fs' : FileSystem} {p : Path}

namespace Path

/-- Writing a text asks for the directories above its path and for the path itself. -/
theorem asks_writeText {P : Procedure.Request → Prop} {text : String}
    (hmake : ∀ q : Path, q.IsAbove p.parent → P (.makeDirectory q.text))
    (hlook : ∀ path, P (.look path)) (hwrite : P (.write p.text text.toUTF8)) :
    (p.writeText text).Asks P := by
  have habove : (Procedure.makeDirectories p.parent.root p.parent.parts.reverse).Asks P := by
    apply Procedure.asks_makeDirectories
    · intro q hq
      rw [List.reverse_reverse] at hq
      exact hmake q hq
    · exact hlook
  refine habove.bind fun answer => ?_
  cases answer with
  | error e => exact .done _
  | ok => exact .write hwrite .done

theorem events_run_writeText (p : Path) (text : String) (fs : FileSystem) :
    ((p.writeText text).run fs).events = [] := by
  have hasks : (p.writeText text).Asks (fun request => ∀ event, request ≠ .report event) := by
    apply asks_writeText <;> simp
  exact hasks.events_run (fun event h => h event rfl) fs

/-- A text that has been written was written last of all. -/
theorem exists_write_of_run {text : String}
    (hrun : ((p.writeText text).run fs).result = .ok (.ok ())) :
    ∃ mid : FileSystem, mid.write p.text text.toUTF8 = .ok ((p.writeText text).run fs).files := by
  unfold writeText at hrun ⊢
  obtain ⟨answer, hmade, hwrite⟩ := Procedure.exists_of_result_bind hrun
  rw [Procedure.run_bind_of_ok hmade]
  cases answer with
  | error e => nomatch Except.ok.inj hwrite
  | ok =>
      generalize (Procedure.run (Procedure.makeDirectories _ _) fs).files = mid at hwrite ⊢
      refine ⟨mid, ?_⟩
      simp only [Procedure.run] at hwrite ⊢
      cases hfiles : mid.write p.text text.toUTF8 with
      | error e =>
          rw [hfiles] at hwrite
          nomatch Except.ok.inj hwrite
      | ok written => rfl

/-- Writing a text again, where its file can be written to, only writes the file. -/
theorem run_writeText (hp : p.Normal) {above : List String} {name : String}
    (hparts : p.parts = above ++ [name]) (hrewritable : fs.Rewritable p)
    (hfree : fs.node? (fs.destination p) ≠ some .directory) (text : String) :
    (p.writeText text).run fs =
      ⟨.ok (.ok ()), [], fs.putFile (fs.destination p, text.toUTF8)⟩ := by
  obtain ⟨entries, hentry⟩ := FileSystem.exists_entry?_parent hp hparts hrewritable.locate
  have hmade := Procedure.run_makeDirectories_of_directory hentry
  have hresult : ((Procedure.makeDirectories p.parent.root p.parent.parts.reverse).run fs).result =
      .ok (.ok ()) := by rw [hmade]
  unfold writeText
  rw [Procedure.run_bind_of_ok hresult, hmade]
  simp only [Procedure.run, hrewritable.write hfree, List.append_nil]

end Path

namespace Diagram

variable {d : Diagram} {out : Path}

/-- The events of writing a diagram. -/
def eventsOf (d : Diagram) (out : Path) (type : NamedType) : List Event :=
  (d.draw type).run.events ++ [.artifactWritten (type.artifactPath out).text]

/-- The bytes of a diagram. -/
def bytesOf (d : Diagram) (type : NamedType) : ByteArray :=
  ((d.draw type).result.toOption.getD "").toUTF8

theorem bytesOf_eq {type : NamedType} {text : String} (htext : (d.draw type).result = .ok text) :
    d.bytesOf type = text.toUTF8 := by
  rw [bytesOf, htext]
  rfl

/-- Writing one diagram leaves what writing its text leaves. -/
theorem run_writeOne {type : NamedType} {text : String} (htext : (d.draw type).result = .ok text)
    (hwrite : (((type.artifactPath out).writeText text).run fs).result = .ok (.ok ())) :
    (d.writeOne out type).run fs = ⟨.ok (type.artifactPath out).text, d.eventsOf out type,
      (((type.artifactPath out).writeText text).run fs).files⟩ := by
  have hdraw := Procedure.run_ofAttempt (d.draw type) fs
  have hresult : ((Procedure.ofAttempt (d.draw type)).run fs).result = .ok text := by
    rw [hdraw, htext]
  unfold writeOne
  rw [Procedure.run_bind_of_ok hresult, hdraw, Procedure.run_bind_of_ok hwrite,
    Path.events_run_writeText]
  simp only [Procedure.run_emit_pure, List.nil_append, eventsOf]

theorem files_run_writeOne {type : NamedType} {text : String}
    (htext : (d.draw type).result = .ok text)
    (hwrite : (((type.artifactPath out).writeText text).run fs).result = .ok (.ok ())) :
    ((d.writeOne out type).run fs).files =
      (((type.artifactPath out).writeText text).run fs).files := by
  rw [run_writeOne htext hwrite]

/-- A diagram that has been written has been drawn. -/
theorem exists_of_run_writeOne {type : NamedType} {written : String}
    (hrun : ((d.writeOne out type).run fs).result = .ok written) :
    ∃ text, (d.draw type).result = .ok text ∧
      (((type.artifactPath out).writeText text).run fs).result = .ok (.ok ()) := by
  unfold writeOne at hrun
  obtain ⟨text, htext, hrun⟩ := Procedure.exists_of_result_bind hrun
  rw [Procedure.run_ofAttempt] at htext hrun
  obtain ⟨answer, hwrite, hrun⟩ := Procedure.exists_of_result_bind hrun
  cases answer with
  | error cause => simp only [Procedure.run, reduceCtorEq] at hrun
  | ok => exact ⟨text, htext, hwrite⟩

/-- The requests that writing the diagrams of types may make. -/
def Requests (out : Path) (types : List NamedType) : Procedure.Request → Prop
  | .makeDirectory path =>
      ∃ q : Path, path = q.text ∧ ∃ type ∈ types, q.IsAbove (type.artifactPath out).parent
  | .write path _ => ∃ type ∈ types, path = (type.artifactPath out).text
  | _ => True

theorem asks_writeOne {types : List NamedType} {type : NamedType} (htype : type ∈ types) :
    (d.writeOne out type).Asks (Requests out types) := by
  unfold writeOne
  refine (Procedure.asks_ofAttempt (fun _ => trivial) _).bind fun text => ?_
  have hwrite : ((type.artifactPath out).writeText text).Asks (Requests out types) := by
    apply Path.asks_writeText
    · exact fun q hq => ⟨q, rfl, type, htype, hq⟩
    · exact fun _ => trivial
    · exact ⟨type, htype, rfl⟩
  refine hwrite.bind fun answer => ?_
  cases answer with
  | error cause => exact .fail _
  | ok => exact (Procedure.asks_emit trivial).bind fun _ => .done _

theorem asks_mapM_writeOne (types : List NamedType) :
    (types.mapM (d.writeOne out)).Asks (Requests out types) :=
  Procedure.asks_mapM fun _ htype => asks_writeOne htype

/-- What stays as it is while diagrams are written: whatever is read again. -/
structure Undisturbed (out : Path) (types : List NamedType) (fs fs' : FileSystem) : Prop where
  files : WritesOnly out types fs fs'
  refusal : fs'.refusal = fs.refusal
  sources {place : List String} {tree : Tree ByteArray} : fs.root.get? place = some tree →
    ∃ tree', fs'.root.get? place = some tree' ∧ tree.SameSources tree'

namespace Undisturbed

variable {types : List NamedType}

theorem refl (out : Path) (types : List NamedType) (fs : FileSystem) :
    Undisturbed out types fs fs where
  files := .refl _ _ fs
  refusal := rfl
  sources hplace := ⟨_, hplace, rfl, fun _ => rfl⟩

/-- Nothing is disturbed in two steps if nothing is in either. -/
theorem trans {fs'' : FileSystem} (h : Undisturbed out types fs fs')
    (h' : Undisturbed out types fs' fs'') : Undisturbed out types fs fs'' where
  files := h.files.trans h'.files
  refusal := h'.refusal.trans h.refusal
  sources hplace := by
    obtain ⟨tree', hplace', hsame⟩ := h.sources hplace
    obtain ⟨tree'', hplace'', hsame'⟩ := h'.sources hplace'
    refine ⟨tree'', hplace'', hsame'.isDirectory.trans hsame.isDirectory, fun path => ?_⟩
    rw [hsame'.sources, hsame.sources]

end Undisturbed

/-- The file of a diagram is no source. -/
theorem isSourceFile_artifact (last : String) : isSourceFile (last ++ artifactEnding) = false := by
  have hname : Text.afterLast '/' (last ++ artifactEnding) =
      Text.afterLast '/' last ++ artifactEnding :=
    Text.afterLast_append '/' (by simp [Text.Lacks, artifactEnding]) last
  have hending (s : String) : Text.afterLast '.' (s ++ artifactEnding) = "puml" := by
    have hdot : s ++ artifactEnding = s ++ "." ++ "puml" := by
      rw [String.append_assoc]
      rfl
    rw [hdot, Text.afterLast_append '.' (by simp [Text.Lacks])]
    simp [Text.afterLast]
  have hextension : extensionOf (last ++ artifactEnding) = "" ∨
      extensionOf (last ++ artifactEnding) = ".puml" := by
    simp only [extensionOf, hname, hending]
    split
    · exact .inr rfl
    · exact .inl rfl
  unfold isSourceFile languageOf?
  rcases hextension with hnone | hpuml
  · rw [hnone]
    decide +kernel
  · rw [hpuml]
    decide +kernel

/-- The last name on the way to a diagram. -/
theorem exists_destination_artifactPath (fs : FileSystem) (type : NamedType) (out : Path) :
    ∃ around last, fs.destination (type.artifactPath out) = around ++ [last ++ artifactEnding] := by
  obtain ⟨above, last, hlast, hparts⟩ := type.exists_parts_artifactPath out
  rw [FileSystem.destination, hparts, List.foldl_append, List.foldl_cons, List.foldl_nil,
    FileSystem.descend, if_neg (NamedType.isName_artifact hlast).2]
  exact ⟨_, last, rfl⟩

theorem undisturbed_makeDirectory {types : List NamedType} (hout : out.Normal) {path : String}
    (hpath : Requests out types (.makeDirectory path)) (hmade : fs.makeDirectory path = .ok fs') :
    Undisturbed out types fs fs' := by
  obtain ⟨q, rfl, type, htype, hq⟩ := hpath
  have hnormal : q.Normal :=
    (type.normal_artifactPath hout).of_isAbove (hq.trans (Path.isAbove_parent _))
  have hfiles : WritesOnly out types fs fs' :=
    FileSystem.extends_makeDirectory hnormal ⟨type, htype, hq⟩ hmade
  obtain ⟨place, -, hnone, rfl⟩ := FileSystem.makeDirectory_eq_ok hmade
  exact ⟨hfiles, rfl, Tree.exists_sameSources_get?_put (.directory hnone)⟩

theorem undisturbed_write {types : List NamedType} (hout : out.Normal) {path : String}
    {content : ByteArray} (hpath : Requests out types (.write path content))
    (hwritten : fs.write path content = .ok fs') : Undisturbed out types fs fs' := by
  obtain ⟨type, htype, rfl⟩ := hpath
  have hnormal := type.normal_artifactPath hout
  have hfiles : WritesOnly out types fs fs' :=
    FileSystem.extends_write hnormal ⟨type, htype, rfl⟩ hwritten
  obtain ⟨place, hplace, hfree, -, rfl⟩ := FileSystem.write_eq_ok_iff.mp hwritten
  refine ⟨hfiles, rfl, Tree.exists_sameSources_get?_put (.file content hfree ?_)⟩
  obtain ⟨around, last, hlast⟩ := exists_destination_artifactPath fs type out
  intro name hname
  rw [FileSystem.eq_destination_of_locate hnormal hplace, hlast, List.getLast?_concat] at hname
  rw [← Option.some.inj hname]
  exact isSourceFile_artifact last

/-- Writing diagrams disturbs no source, whether it succeeds or not. -/
theorem undisturbed_run (hout : out.Normal) (types : List NamedType) (fs : FileSystem) :
    Undisturbed out types fs ((types.mapM (d.writeOne out)).run fs).files :=
  (asks_mapM_writeOne types).files_run (.refl out types) .trans (undisturbed_makeDirectory hout)
    (undisturbed_write hout) fs

/-! Writing diagrams that have been written. -/

/-- The place and the bytes of a diagram. -/
def fileOf (d : Diagram) (out : Path) (fs : FileSystem) (type : NamedType) :
    List String × ByteArray :=
  (fs.destination (type.artifactPath out), d.bytesOf type)

theorem fst_fileOf (d : Diagram) (out : Path) (fs : FileSystem) (type : NamedType) :
    (d.fileOf out fs type).1 = fs.destination (type.artifactPath out) := by
  rw [fileOf]

theorem fileOf_putFile (d : Diagram) (out : Path) (fs : FileSystem)
    (file : List String × ByteArray) : d.fileOf out (fs.putFile file) = d.fileOf out fs := rfl

/-- Diagrams that can be drawn and are in their files, which can be written to. -/
structure Settled (d : Diagram) (out : Path) (types : List NamedType) (fs : FileSystem) :
    Prop where
  drawn : ∀ type ∈ types, ∃ text, (d.draw type).result = .ok text
  rewritable : ∀ type ∈ types, fs.Rewritable (type.artifactPath out)
  holdsLast : fs.root.HoldsLast (types.map (d.fileOf out fs))

/-- A diagram that is written before others stays, unless one of them has the same place. -/
theorem Settled.cons (hout : out.Normal) {first : NamedType} {rest : List NamedType}
    {before mid left : FileSystem} (hdrawn : ∃ text, (d.draw first).result = .ok text)
    (hfirst : before.write (first.artifactPath out).text (d.bytesOf first) = .ok mid)
    (hleft : Undisturbed out rest mid left) (hrest : Settled d out rest left) :
    Settled d out (first :: rest) left := by
  have hnormal := first.normal_artifactPath hout
  have hrewritable := (FileSystem.rewritable_of_write hnormal hfirst).extends hleft.files
    hleft.refusal
  refine ⟨?_, ?_, ?_, hrest.holdsLast⟩
  · exact List.forall_mem_cons.mpr ⟨hdrawn, hrest.drawn⟩
  · exact List.forall_mem_cons.mpr ⟨hrewritable, hrest.rewritable⟩
  · by_cases hagain : ∃ type ∈ rest, mid.destination (first.artifactPath out) =
        mid.destination (type.artifactPath out)
    · obtain ⟨type, htype, hsame⟩ := hagain
      right
      rw [List.map_map, List.mem_map]
      refine ⟨type, htype, ?_⟩
      rw [Function.comp_apply, fst_fileOf, hleft.files.destination, hleft.files.destination, hsame]
    · left
      obtain ⟨above, last, hlast, hparts⟩ := first.exists_parts_artifactPath out
      have hname := (NamedType.isName_artifact hlast).2
      have hentry := FileSystem.entry?_write hnormal hparts hname hfirst
      have hkept := hleft.files.entry? hnormal (by
        rintro q ⟨type, htype, rfl⟩ hsame
        exact hagain ⟨type, htype, hsame⟩) hentry
      obtain ⟨place, hplace, hfile⟩ := FileSystem.entry?_eq_some_iff.mp hkept
      obtain rfl := FileSystem.eq_destination_of_locate hnormal hplace
      exact hfile

/-- Diagrams that have been written successfully are settled. -/
theorem settled_of_run (hout : out.Normal) {types : List NamedType} {written : List String}
    (hrun : ((types.mapM (d.writeOne out)).run fs).result = .ok written) :
    Settled d out types ((types.mapM (d.writeOne out)).run fs).files := by
  induction types generalizing fs written with
  | nil => exact ⟨by simp, by simp, trivial⟩
  | cons first rest ih =>
      obtain ⟨path, paths, hfirst, hrest⟩ := Procedure.exists_of_result_mapM_cons hrun
      obtain ⟨text, htext, hwrite⟩ := exists_of_run_writeOne hfirst
      obtain ⟨before, hbefore⟩ := Path.exists_write_of_run hwrite
      rw [← files_run_writeOne htext hwrite, ← bytesOf_eq htext] at hbefore
      rw [Procedure.files_run_mapM_cons hfirst hrest]
      exact Settled.cons hout ⟨text, htext⟩ hbefore (undisturbed_run hout rest _) (ih hrest)

/-- The paths and events of a successful run do not depend on the files. -/
theorem run_mapM_of_ok {types : List NamedType} {written : List String}
    (hrun : ((types.mapM (d.writeOne out)).run fs).result = .ok written) :
    ((types.mapM (d.writeOne out)).run fs).result =
        .ok (types.map fun type => (type.artifactPath out).text) ∧
      ((types.mapM (d.writeOne out)).run fs).events = types.flatMap (d.eventsOf out) := by
  induction types generalizing fs written with
  | nil => exact ⟨rfl, rfl⟩
  | cons first rest ih =>
      obtain ⟨path, paths, hfirst, hrest⟩ := Procedure.exists_of_result_mapM_cons hrun
      obtain ⟨text, htext, hwrite⟩ := exists_of_run_writeOne hfirst
      have hone := run_writeOne htext hwrite
      have hpath : ((d.writeOne out first).run fs).result = .ok (first.artifactPath out).text := by
        rw [hone]
      have hevents : ((d.writeOne out first).run fs).events = d.eventsOf out first := by
        rw [hone]
      obtain ⟨hpaths, hmore⟩ := ih hrest
      rw [Procedure.run_mapM_cons hpath hpaths]
      exact ⟨rfl, by rw [hevents, hmore, List.flatMap_cons]⟩

/-- Writing a diagram where a file is only puts it there. -/
theorem run_writeOne_of_file (hout : out.Normal) {type : NamedType} {text : String}
    (htext : (d.draw type).result = .ok text) (hrewritable : fs.Rewritable (type.artifactPath out))
    {old : ByteArray} (hold : fs.root.get? (d.fileOf out fs type).1 = some (.file old)) :
    ((d.writeOne out type).run fs).result = .ok (type.artifactPath out).text ∧
      ((d.writeOne out type).run fs).files = fs.putFile (d.fileOf out fs type) ∧
      WritesOnly out [type] fs (fs.putFile (d.fileOf out fs type)) := by
  have hnormal := type.normal_artifactPath hout
  obtain ⟨above, last, -, hparts⟩ := type.exists_parts_artifactPath out
  have hfree : fs.node? (fs.destination (type.artifactPath out)) ≠ some .directory := by
    rw [← fst_fileOf d, FileSystem.node?, Tree.node?_eq_some_file_iff.mpr hold]
    simp
  have hwrite := Path.run_writeText hnormal hparts hrewritable hfree text
  have hdone : (((type.artifactPath out).writeText text).run fs).result = .ok (.ok ()) := by
    rw [hwrite]
  refine ⟨?_, ?_, ?_⟩
  · rw [run_writeOne htext hdone]
  · rw [files_run_writeOne htext hdone, hwrite, ← bytesOf_eq htext, fileOf]
  · exact FileSystem.extends_write hnormal ⟨type, List.mem_singleton_self type, rfl⟩
      (hrewritable.write hfree (d.bytesOf type))

/-- Writing diagrams where files are only puts them there, one after the other. -/
theorem run_mapM_of_files (hout : out.Normal) {types : List NamedType}
    (hdrawn : ∀ type ∈ types, ∃ text, (d.draw type).result = .ok text)
    (hrewritable : ∀ type ∈ types, fs.Rewritable (type.artifactPath out))
    (hfiles : ∀ place ∈ (types.map (d.fileOf out fs)).map Prod.fst,
      ∃ content, fs.root.get? place = some (.file content)) :
    ∃ written, ((types.mapM (d.writeOne out)).run fs).result = .ok written ∧
      ((types.mapM (d.writeOne out)).run fs).files =
        (types.map (d.fileOf out fs)).foldl FileSystem.putFile fs := by
  induction types generalizing fs with
  | nil => exact ⟨[], rfl, rfl⟩
  | cons first rest ih =>
      obtain ⟨⟨text, htext⟩, hdrawn⟩ := List.forall_mem_cons.mp hdrawn
      obtain ⟨hfirst, hrewritable⟩ := List.forall_mem_cons.mp hrewritable
      obtain ⟨⟨old, hold⟩, hfiles⟩ := List.forall_mem_cons.mp hfiles
      obtain ⟨hpath, hmid, hextends⟩ := run_writeOne_of_file hout htext hfirst hold
      have hsame := fileOf_putFile d out fs (d.fileOf out fs first)
      generalize hnext : fs.putFile (d.fileOf out fs first) = next at hmid hextends hsame
      have hlater : ∀ type ∈ rest, next.Rewritable (type.artifactPath out) := by
        intro type htype
        refine (hrewritable type htype).extends hextends ?_
        rw [← hnext, FileSystem.refusal_putFile]
      have hthere : ∀ place ∈ (rest.map (d.fileOf out next)).map Prod.fst,
          ∃ content, next.root.get? place = some (.file content) := by
        intro place hplace
        rw [hsame] at hplace
        obtain ⟨content, hcontent⟩ := hfiles place hplace
        rw [← hnext]
        exact FileSystem.get?_putFile hold hcontent
      obtain ⟨written, hrest, hleft⟩ := ih hdrawn hlater hthere
      rw [← hmid] at hrest
      refine ⟨_, congrArg Procedure.Outcome.result (Procedure.run_mapM_cons hpath hrest), ?_⟩
      rw [Procedure.files_run_mapM_cons hpath hrest, hmid, hleft, hsame, List.map_cons,
        List.foldl_cons, hnext]

/-- Writing settled diagrams succeeds and changes nothing. -/
theorem Settled.run_mapM (hout : out.Normal) {types : List NamedType}
    (hsettled : Settled d out types fs) :
    (∃ written, ((types.mapM (d.writeOne out)).run fs).result = .ok written) ∧
      ((types.mapM (d.writeOne out)).run fs).files = fs := by
  obtain ⟨hdrawn, hrewritable, hlast⟩ := hsettled
  obtain ⟨written, hresult, hfiles⟩ :=
    run_mapM_of_files hout hdrawn hrewritable hlast.exists_file
  rw [FileSystem.foldl_putFile, hlast.foldl_put] at hfiles
  exact ⟨⟨written, hresult⟩, hfiles⟩

/-- Writing all diagrams writes them one by one and then reports how many there are. -/
theorem run_writeAll {d : Diagram} {out : String} {paths : List String}
    (hrun : ((d.sortedTypes.mapM (d.writeOne (.ofString out))).run fs).result = .ok paths) :
    (d.writeAll out).run fs =
      ⟨.ok paths, ((d.sortedTypes.mapM (d.writeOne (.ofString out))).run fs).events ++
          [.artifactsWritten paths.length out],
        ((d.sortedTypes.mapM (d.writeOne (.ofString out))).run fs).files⟩ := by
  rw [writeAll, Procedure.run_bind_of_ok hrun, Procedure.run_emit_pure]

/-- Writing all diagrams again, after it has succeeded, has the same outcome. -/
theorem run_writeAll_again {d : Diagram} {out : String} {written : List String}
    (hrun : ((d.writeAll out).run fs).result = .ok written) :
    Undisturbed (.ofString out) d.sortedTypes fs ((d.writeAll out).run fs).files ∧
      (d.writeAll out).run ((d.writeAll out).run fs).files = (d.writeAll out).run fs := by
  have hout := Path.normal_ofString out
  obtain ⟨paths, hpaths, -⟩ := Procedure.exists_of_result_bind hrun
  rw [run_writeAll hpaths]
  refine ⟨undisturbed_run hout _ fs, ?_⟩
  obtain ⟨⟨again, hagain⟩, hsame⟩ := (settled_of_run hout hpaths).run_mapM hout
  obtain ⟨hfirst, hevents⟩ := run_mapM_of_ok hpaths
  obtain ⟨hsecond, hevents'⟩ := run_mapM_of_ok hagain
  have hequal : again = paths := by
    rw [hfirst] at hpaths
    rw [hsecond] at hagain
    exact Except.ok.inj (hagain.symm.trans hpaths)
  rw [run_writeAll hagain, hequal, hevents', hevents, hsame]

end Diagram

end ClassChart
