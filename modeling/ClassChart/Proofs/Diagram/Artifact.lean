import ClassChart.Diagram.Artifact
import ClassChart.Proofs.Source.FileOrder
import ClassChart.Proofs.Storage.Procedure
import Mathlib.Data.String.Basic

/-!
Writing the diagrams of all types.  Each type has a place of its own, so the diagrams that
are written do not overwrite each other, and a failure leaves those before it complete and
those after it untouched.
-/
namespace ClassChart

namespace NamedType

theorem isName_artifact {last : String} (hlast : Text.Lacks '/' last) :
    Path.IsName (last ++ artifactEnding) ∧ last ++ artifactEnding ≠ ".." := by
  have hlong : 5 ≤ (last ++ artifactEnding).length := by
    rw [String.length_append]
    exact Nat.le_add_left 5 _
  have hne (s : String) (hs : s.length < 5) : last ++ artifactEnding ≠ s := by
    rintro rfl
    omega
  refine ⟨⟨?_, hne "" (by decide), hne "." (by decide)⟩, hne ".." (by decide)⟩
  exact Text.lacks_append.mpr ⟨hlast, by simp [Text.Lacks, artifactEnding]⟩

/-- Whatever its names are, the diagram of a type has a path in normal form. -/
theorem normal_artifactPath (type : NamedType) {out : Path} (hout : out.Normal) :
    (type.artifactPath out).Normal := by
  unfold artifactPath artifactDirectory
  split
  · exact hout.join _
  · exact (hout.foldl_join _).join _

/-- Whatever its names are, the file of a diagram has the ending of diagrams. -/
theorem exists_parts_artifactPath (type : NamedType) (out : Path) :
    ∃ above last, Text.Lacks '/' last ∧
      (type.artifactPath out).parts = above ++ [last ++ artifactEnding] := by
  have hparts : ∃ above last, Text.Lacks '/' last ∧
      Path.partsOf (type.localName ++ artifactEnding) = above ++ [last ++ artifactEnding] := by
    rcases Text.lacks_or_eq_append '/' type.localName with hlacks | ⟨front, last, hlast, heq⟩
    · exact ⟨[], _, hlacks, (isName_artifact hlacks).1.partsOf_eq⟩
    · refine ⟨Path.partsOf front, last, hlast, ?_⟩
      rw [heq, String.append_assoc, ← (isName_artifact hlast).1.partsOf_eq]
      exact Path.partsOf_append front _
  obtain ⟨above, last, hlast, hparts⟩ := hparts
  unfold artifactPath Path.join
  split
  · refine ⟨(type.artifactDirectory out).parts ++ above, last, hlast, ?_⟩
    simp only [hparts, List.append_assoc]
  · exact ⟨above, last, hlast, hparts⟩

/-- The qualified name is the package and a local name, and fits into paths. -/
structure WellPlaced (type : NamedType) : Prop where
  lacks : Text.Lacks '/' type.qualifiedName
  package : type.package ≠ "" →
    (∀ segment ∈ Text.split '.' type.package, segment ≠ "") ∧
      ∃ localName, type.qualifiedName = type.package ++ "." ++ localName

/-- The directories of a package. -/
def segments (type : NamedType) : List String :=
  if type.package = "" then [] else Text.split '.' type.package

/-- The name of the file of a diagram. -/
def fileName (type : NamedType) : String :=
  type.localName ++ artifactEnding

theorem fileName_not_mem_segments (file type : NamedType) : file.fileName ∉ type.segments := by
  intro hmem
  unfold segments at hmem
  split at hmem
  · contradiction
  · have hdot := (Text.lacks_of_mem_split '.' hmem).1
    simp [fileName, artifactEnding, Text.Lacks] at hdot

namespace WellPlaced

variable {type : NamedType} (htype : type.WellPlaced)

include htype

theorem qualifiedName_eq :
    type.qualifiedName = ".".intercalate (type.segments ++ [type.localName]) := by
  unfold segments localName
  by_cases hpackage : type.package = ""
  · simp [hpackage]
  · obtain ⟨-, localName, hname⟩ := htype.package hpackage
    have hlength : type.package.length + 1 = (type.package ++ ".").length := by
      rw [String.length_append]
      rfl
    have hsplit : Text.split '.' type.package ≠ [] := by
      intro hnil
      have hjoin := Text.intercalate_split '.' type.package
      rw [hnil] at hjoin
      exact hpackage hjoin.symm
    rw [if_neg hpackage, if_neg hpackage, hname, hlength, Text.dropFirst_append,
      String.intercalate_append_of_ne_nil hsplit (List.cons_ne_nil _ _),
      String.intercalate_singleton]
    have hjoin : ".".intercalate (Text.split '.' type.package) = type.package :=
      Text.intercalate_split '.' type.package
    rw [hjoin]

theorem lacks_parts : ∀ s ∈ type.segments ++ [type.localName], Text.Lacks '/' s := by
  have hname := htype.lacks
  rwa [htype.qualifiedName_eq, Text.lacks_intercalate (by simp [Text.Lacks])] at hname

theorem isName_segment {segment : String} (hsegment : segment ∈ type.segments) :
    Path.IsName segment ∧ segment ≠ ".." := by
  have hslash := htype.lacks_parts segment (List.mem_append_left _ hsegment)
  unfold segments at hsegment
  split at hsegment
  · contradiction
  · rename_i hpackage
    have hdot := (Text.lacks_of_mem_split '.' hsegment).1
    refine ⟨⟨hslash, (htype.package hpackage).1 segment hsegment, ?_⟩, ?_⟩
    · rintro rfl
      simp [Text.Lacks] at hdot
    · rintro rfl
      simp [Text.Lacks] at hdot

theorem isName_fileName : Path.IsName type.fileName ∧ type.fileName ≠ ".." :=
  isName_artifact (htype.lacks_parts type.localName (by simp))

theorem artifactPath_eq (out : Path) :
    type.artifactPath out = ⟨out.root, out.parts ++ type.segments ++ [type.fileName]⟩ := by
  have hdirectory : type.artifactDirectory out = type.segments.foldl Path.join out := by
    unfold artifactDirectory segments
    split <;> rfl
  rw [artifactPath, hdirectory,
    Path.foldl_join_names out fun _ hsegment => (htype.isName_segment hsegment).1]
  exact Path.join_name _ htype.isName_fileName.1

/-- A diagram stands below the output directory, in the directories of its package. -/
theorem destination_artifactPath (fs : FileSystem) (out : Path) :
    fs.destination (type.artifactPath out) =
      fs.destination out ++ (type.segments ++ [type.fileName]) := by
  have hnames : ∀ name ∈ type.segments ++ [type.fileName], name ≠ ".." := by
    simp only [List.forall_mem_append, List.forall_mem_singleton]
    exact ⟨fun _ hsegment => (htype.isName_segment hsegment).2, htype.isName_fileName.2⟩
  rw [htype.artifactPath_eq, FileSystem.destination, List.append_assoc, List.foldl_append,
    FileSystem.foldl_descend_names hnames]
  rfl

/-- The way to a diagram goes through no other one. -/
theorem qualifiedName_eq_of_isPrefix {other : NamedType} (hother : other.WellPlaced)
    (hlead : type.segments ++ [type.fileName] <+: other.segments ++ [other.fileName]) :
    type.qualifiedName = other.qualifiedName := by
  rcases List.prefix_concat_iff.mp hlead with heq | hinside
  · obtain ⟨hsegments, hfile⟩ := List.append_inj' heq rfl
    have hlocal : type.localName = other.localName := by
      rw [← Text.dropLast_append type.localName artifactEnding, ← fileName,
        List.singleton_inj.mp hfile, fileName, Text.dropLast_append]
    rw [htype.qualifiedName_eq, hother.qualifiedName_eq, hsegments, hlocal]
  · -- The file would be a directory of the other package, but only files have a dot in their name.
    exact absurd (hinside.subset (by simp)) (fileName_not_mem_segments type other)

/-- Types of different names have different places. -/
theorem destination_injective {other : NamedType} (hother : other.WellPlaced) {fs : FileSystem}
    {out : Path}
    (heq : fs.destination (type.artifactPath out) = fs.destination (other.artifactPath out)) :
    type.qualifiedName = other.qualifiedName := by
  rw [htype.destination_artifactPath, hother.destination_artifactPath,
    List.append_cancel_left_eq] at heq
  exact htype.qualifiedName_eq_of_isPrefix hother (heq ▸ List.prefix_rfl)

end WellPlaced

end NamedType

/-- Whatever the output directory is, the diagrams of different types have different paths, no
path is that of a directory on the way to another, and so it is with the places that they lead
to in a file system. -/
theorem Catalog.artifacts_apart {types : List NamedType}
    (hplaced : ∀ type ∈ (ofList types).value.types, type.WellPlaced) (out : String)
    {a b : NamedType} (ha : a ∈ (ofList types).value.types) (hb : b ∈ (ofList types).value.types)
    (hne : a ≠ b) :
    let pathOf (type : NamedType) : Path := type.artifactPath (.ofString out)
    pathOf a ≠ pathOf b ∧ (pathOf a).text ≠ (pathOf b).text ∧ ¬(pathOf a).IsAbove (pathOf b) ∧
      ∀ fs : FileSystem, ¬fs.destination (pathOf a) <+: fs.destination (pathOf b) := by
  intro pathOf
  have hnames : a.qualifiedName ≠ b.qualifiedName := fun heq =>
    hne (eq_of_qualifiedName_eq ha hb heq)
  have hapart : ¬a.segments ++ [a.fileName] <+: b.segments ++ [b.fileName] := fun hlead =>
    hnames ((hplaced a ha).qualifiedName_eq_of_isPrefix (hplaced b hb) hlead)
  have habove : ¬(pathOf a).IsAbove (pathOf b) := by
    rintro ⟨-, hparts⟩
    simp only [pathOf, (hplaced a ha).artifactPath_eq, (hplaced b hb).artifactPath_eq,
      List.append_assoc, List.prefix_append_right_inj] at hparts
    exact hapart hparts
  refine ⟨fun heq => habove (heq ▸ .refl _), fun htext => ?_, habove, fun fs => ?_⟩
  · have hnormal (type : NamedType) : (pathOf type).Normal :=
      type.normal_artifactPath (Path.normal_ofString out)
    have hparts : (pathOf a).parts = (pathOf b).parts := by
      rw [← (hnormal a).partsOf_text, htext, (hnormal b).partsOf_text]
    have hroot : (pathOf a).root = (pathOf b).root := by
      simp only [pathOf, (hplaced a ha).artifactPath_eq, (hplaced b hb).artifactPath_eq]
    exact habove ⟨hroot, hparts ▸ List.prefix_rfl⟩
  · rw [(hplaced a ha).destination_artifactPath, (hplaced b hb).destination_artifactPath,
      List.prefix_append_right_inj]
    exact hapart

/-- The file of a class and the directories of a package that has the ending of diagrams in its
name. -/
theorem Catalog.artifacts_apart_ending_package :
    let a : NamedType := { qualifiedName := "A", name := "A" }
    let b : NamedType := { qualifiedName := "A.puml.B.C", name := "C", package := "A.puml" }
    ((ofList [a, b]).value.types = [a, b] ∧ (∀ type ∈ [a, b], type.WellPlaced) ∧ a ≠ b) ∧
      (a.artifactPath (.ofString "./o")).text = "o/A.puml" ∧
      (b.artifactPath (.ofString "./o")).text = "o/A/puml/B.C.puml" ∧
      ¬(a.artifactPath (.ofString "./o")).IsAbove (b.artifactPath (.ofString "./o")) := by
  intro a b
  have htypes : (ofList [a, b]).value.types = [a, b] := by decide +kernel
  have hplaced : ∀ type ∈ [a, b], type.WellPlaced := by
    refine List.forall_mem_cons.mpr ⟨?_, List.forall_mem_singleton.mpr ?_⟩
    · exact ⟨by decide +kernel, fun h => absurd rfl h⟩
    · exact ⟨by decide +kernel, fun _ => ⟨by decide +kernel, "B.C", by decide⟩⟩
  have hne : a ≠ b := by decide
  obtain ⟨-, -, hapart, -⟩ := artifacts_apart (htypes ▸ hplaced) "./o" (a := a) (b := b)
    (by simp [htypes]) (by simp [htypes]) hne
  exact ⟨⟨htypes, hplaced, hne⟩, by decide +kernel, by decide +kernel, hapart⟩

variable {fs fs' : FileSystem}

/-- Writing a text makes directories on the way and changes no other file.  It gives back an
answer, and if that is good, the text is there. -/
theorem Path.runs_writeText {p : Path} (hp : p.Normal) {above : List String} {name : String}
    (hparts : p.parts = above ++ [name]) (hname : name ≠ "..") {text : String}
    {result : Except Fault (Except OsError Unit)}
    (hrun : (p.writeText text).Runs fs result fs') :
    fs.Extends (·.IsAbove p.parent) (· = p) fs' ∧
      (result = .ok (.ok ()) ∧ fs'.entry? p.text = some (.file text.toUTF8) ∨
        ∃ cause, result = .ok (.error cause)) := by
  have hmakes : ∀ q : Path, q.IsAbove ⟨p.parent.root, p.parent.parts.reverse.reverse⟩ →
      q.Normal ∧ q.IsAbove p.parent := by
    intro q hq
    rw [List.reverse_reverse] at hq
    exact ⟨hp.of_isAbove (hq.trans p.isAbove_parent), hq⟩
  obtain ⟨first, mid, hmake, hrun⟩ := Procedure.Runs.of_bind hrun
  obtain ⟨⟨answer, rfl⟩, hmid⟩ := Procedure.answers_of_makeDirectories hmakes hmake
  have hmid : fs.Extends (·.IsAbove p.parent) (· = p) mid :=
    hmid.mono (fun _ hq => hq) (fun _ hq => hq.elim)
  cases answer with
  | error cause =>
      obtain ⟨hresult, rfl⟩ := Procedure.Runs.of_done hrun
      exact ⟨hmid, .inr ⟨cause, hresult⟩⟩
  | ok =>
      rcases Procedure.Runs.of_write hrun with ⟨last, hwritten, hrun⟩ | ⟨cause, last, hlast, hrun⟩
      · obtain ⟨hresult, rfl⟩ := hrun.of_done
        have hthere := FileSystem.entry?_write hp hparts hname hwritten
        exact ⟨hmid.trans (FileSystem.extends_write hp rfl hwritten), .inl ⟨hresult, hthere⟩⟩
      · obtain ⟨hresult, rfl⟩ := hrun.of_done
        refine ⟨?_, .inr ⟨cause, hresult⟩⟩
        rcases hlast with rfl | ⟨left, hleft⟩
        · exact hmid
        · exact hmid.trans (FileSystem.extends_write hp rfl hleft)

namespace Diagram

variable {d : Diagram} {out : Path}

/-- The files that writing the diagrams of types leaves. -/
abbrev WritesOnly (out : Path) (types : List NamedType) : FileSystem → FileSystem → Prop :=
  FileSystem.Extends (fun p => ∃ type ∈ types, p.IsAbove (type.artifactPath out).parent)
    (fun p => ∃ type ∈ types, p = type.artifactPath out)

/-- Writing one diagram either succeeds, and the diagram is there, or names its file. -/
theorem runs_writeOne (hout : out.Normal) {type : NamedType} (htype : type.WellPlaced)
    {text : String} (htext : (d.draw type).result = .ok text) {result : Except Fault String}
    (hrun : (d.writeOne out type).Runs fs result fs') :
    WritesOnly out [type] fs fs' ∧
      (result = .ok (type.artifactPath out).text ∧
          fs'.entry? (type.artifactPath out).text = some (.file text.toUTF8) ∨
        ∃ cause, result = .error (.artifactNotWritten (type.artifactPath out).text cause)) := by
  have hparts : (type.artifactPath out).parts =
      out.parts ++ type.segments ++ [type.fileName] := by
    rw [htype.artifactPath_eq]
  obtain ⟨drawn, mid, hdraw, hrun⟩ := Procedure.Runs.of_bind hrun
  obtain ⟨hdrawn, hsame⟩ := hdraw.of_ofAttempt
  rw [hdrawn, htext, hsame] at hrun
  obtain ⟨first, last, hwrite, hrun⟩ := Procedure.Runs.of_bind hrun
  obtain ⟨hfiles, hanswer⟩ := Path.runs_writeText (type.normal_artifactPath hout) hparts
    htype.isName_fileName.2 hwrite
  have hlast : WritesOnly out [type] fs last := by
    apply hfiles.mono
    · exact fun _ hq => ⟨type, List.mem_singleton_self _, hq⟩
    · exact fun _ hq => ⟨type, List.mem_singleton_self _, hq⟩
  rcases hanswer with ⟨rfl, hthere⟩ | ⟨cause, rfl⟩
  · obtain ⟨hresult, rfl⟩ := (Procedure.Runs.of_report hrun).of_done
    exact ⟨hlast, .inl ⟨hresult, hthere⟩⟩
  · obtain ⟨hresult, rfl⟩ := Procedure.Runs.of_fail hrun
    exact ⟨hlast, .inr ⟨cause, hresult⟩⟩

theorem WritesOnly.mono {types types' : List NamedType} (h : WritesOnly out types fs fs')
    (hsub : types ⊆ types') : WritesOnly out types' fs fs' := by
  apply FileSystem.Extends.mono h
  · rintro p ⟨type, htype, hp⟩
    exact ⟨type, hsub htype, hp⟩
  · rintro p ⟨type, htype, hp⟩
    exact ⟨type, hsub htype, hp⟩

/-- The diagram of a type is in its file. -/
def IsWritten (out : Path) (text : NamedType → String) (fs : FileSystem) (type : NamedType) :
    Prop :=
  fs.entry? (type.artifactPath out).text = some (.file (text type).toUTF8)

/-- A diagram that is written stays while those of other types are. -/
theorem IsWritten.writesOnly (hout : out.Normal) {text : NamedType → String} {type : NamedType}
    (hwritten : IsWritten out text fs type) (htype : type.WellPlaced) {others : List NamedType}
    (hothers : ∀ other ∈ others, other.WellPlaced ∧ type.qualifiedName ≠ other.qualifiedName)
    (hfiles : WritesOnly out others fs fs') : IsWritten out text fs' type := by
  refine hfiles.entry? (type.normal_artifactPath hout) ?_ hwritten
  rintro q ⟨other, hother, rfl⟩ heq
  obtain ⟨hplaced, hne⟩ := hothers other hother
  exact hne (htype.destination_injective hplaced heq)

/-- Writing diagrams one after the other goes on to the end or stops at one of them. -/
theorem runs_mapM_writeOne (hout : out.Normal) {types : List NamedType}
    (hplaced : ∀ type ∈ types, type.WellPlaced)
    (hnames : types.Pairwise fun a b => a.qualifiedName ≠ b.qualifiedName)
    {text : NamedType → String} (htext : ∀ type ∈ types, (d.draw type).result = .ok (text type))
    {result : Except Fault (List String)}
    (hrun : (types.mapM (d.writeOne out)).Runs fs result fs') :
    (result = .ok (types.map fun type => (type.artifactPath out).text) ∧
        WritesOnly out types fs fs' ∧ ∀ type ∈ types, IsWritten out text fs' type) ∨
      ∃ before type after cause, types = before ++ type :: after ∧
        result = .error (.artifactNotWritten (type.artifactPath out).text cause) ∧
        WritesOnly out (before ++ [type]) fs fs' ∧
        ∀ earlier ∈ before, IsWritten out text fs' earlier := by
  induction types generalizing fs fs' result with
  | nil =>
      obtain ⟨hresult, rfl⟩ := Procedure.Runs.of_done hrun
      exact .inl ⟨hresult, .refl _ _ fs', by simp⟩
  | cons first rest ih =>
      obtain ⟨hfirst, hrest⟩ := List.forall_mem_cons.mp hplaced
      obtain ⟨hdrawn, hdraw⟩ := List.forall_mem_cons.mp htext
      obtain ⟨hother, hnames⟩ := List.pairwise_cons.mp hnames
      rw [List.mapM_cons] at hrun
      obtain ⟨path, mid, hone, hrun⟩ := Procedure.Runs.of_bind hrun
      obtain ⟨hmid, ⟨rfl, hthere⟩ | ⟨cause, rfl⟩⟩ := runs_writeOne hout hfirst hdrawn hone
      · obtain ⟨paths, last, hmore, hrun⟩ := Procedure.Runs.of_bind hrun
        -- The first is written; whatever is written after it is another file.
        have hkept {others : List NamedType} (hsub : others ⊆ rest)
            (hfiles : WritesOnly out others mid last) : IsWritten out text last first := by
          apply IsWritten.writesOnly hout hthere hfirst _ hfiles
          intro other hmem
          exact ⟨hrest other (hsub hmem), hother other (hsub hmem)⟩
        have hall {others : List NamedType} (hfiles : WritesOnly out others mid last) :
            WritesOnly out (first :: others) fs last :=
          (hmid.mono (by simp)).trans (hfiles.mono (List.subset_cons_self _ _))
        rcases ih hrest hnames hdraw hmore with
          ⟨rfl, hfiles, hwritten⟩ | ⟨before, type, after, cause, hsplit, rfl, hfiles, hwritten⟩
        · obtain ⟨hresult, rfl⟩ := Procedure.Runs.of_done hrun
          refine .inl ⟨hresult, hall hfiles, ?_⟩
          exact List.forall_mem_cons.mpr ⟨hkept (List.Subset.refl _) hfiles, hwritten⟩
        · obtain ⟨hresult, rfl⟩ := hrun
          have hsub : before ++ [type] ⊆ rest := by
            rw [hsplit]
            simp
          refine .inr ⟨first :: before, type, after, cause, ?_, hresult, hall hfiles, ?_⟩
          · rw [hsplit, List.cons_append]
          · exact List.forall_mem_cons.mpr ⟨hkept hsub hfiles, hwritten⟩
      · obtain ⟨hresult, rfl⟩ := hrun
        exact .inr ⟨[], first, rest, cause, rfl, hresult, hmid, by simp⟩

/-- What is drawn for a name is drawn for the type of that name. -/
theorem result_draw_of_drawNamed {type : NamedType} (htype : type ∈ d.catalog.types)
    {text : String} (htext : (d.drawNamed type.qualifiedName).result = .ok text) :
    (d.draw type).result = .ok text := by
  unfold drawNamed at htext
  cases hfind : d.catalog.find? type.qualifiedName with
  | none =>
      rw [hfind] at htext
      contradiction
  | some found =>
      have hname : found.qualifiedName = type.qualifiedName :=
        Catalog.qualifiedName_of_find? hfind
      have hsame : found = type :=
        Catalog.eq_of_qualifiedName_eq (Catalog.mem_types_of_find? hfind) htype hname
      rwa [hfind, hsame] at htext

/-- The files of other types are not touched. -/
theorem WritesOnly.file?_artifact {types : List NamedType} (h : WritesOnly out types fs fs')
    {other : NamedType} (hother : other.WellPlaced)
    (htypes : ∀ type ∈ types, type.WellPlaced ∧ type.qualifiedName ≠ other.qualifiedName) :
    fs'.file? (fs.destination (other.artifactPath out)) =
      fs.file? (fs.destination (other.artifactPath out)) := by
  apply h.file
  rintro p ⟨type, htype, rfl⟩ heq
  obtain ⟨hplaced, hne⟩ := htypes type htype
  exact hne (hother.destination_injective hplaced heq).symm

/-- Whatever requests fail, writing all diagrams goes through the types in the order of their
names.  Either every diagram is in its file, and the paths are given back; or the diagram of
some type could not be written, those before it are complete, and the files of those after it
are as before.  Other files stay as they are. -/
theorem runs_writeAll {types : List NamedType} {settings : Settings} {out : String}
    {text : NamedType → String} {result : Except Fault (List String)}
    (hplaced : ∀ type ∈ (Catalog.ofList types).value.types, type.WellPlaced)
    (htext : ∀ type ∈ (Catalog.ofList types).value.types,
      (drawNamed ⟨(Catalog.ofList types).value, settings⟩ type.qualifiedName).result =
        .ok (text type))
    (hrun : (writeAll ⟨(Catalog.ofList types).value, settings⟩ out).Runs fs result fs') :
    ∃ sorted : List NamedType, sorted.Perm (Catalog.ofList types).value.types ∧
      sorted.Pairwise (fun a b => a.qualifiedName < b.qualifiedName) ∧
      WritesOnly (.ofString out) sorted fs fs' ∧
      ((result = .ok (sorted.map fun type => (type.artifactPath (.ofString out)).text) ∧
          ∀ type ∈ sorted, IsWritten (.ofString out) text fs' type) ∨
        ∃ before type after cause, sorted = before ++ type :: after ∧
          result = .error (.artifactNotWritten (type.artifactPath (.ofString out)).text cause) ∧
          (∀ earlier ∈ before, IsWritten (.ofString out) text fs' earlier) ∧
          ∀ later ∈ after, fs'.file? (fs.destination (later.artifactPath (.ofString out))) =
            fs.file? (fs.destination (later.artifactPath (.ofString out)))) := by
  generalize (Catalog.ofList types).value = catalog at hplaced htext hrun ⊢
  have hperm : (sortedTypes ⟨catalog, settings⟩).Perm catalog.types := List.mergeSort_perm _ _
  have hsorted : (sortedTypes ⟨catalog, settings⟩).Pairwise _ :=
    pairwise_lt_mergeSort catalog.distinct
  generalize hlist : sortedTypes ⟨catalog, settings⟩ = sorted at hperm hsorted
  have hplaced : ∀ type ∈ sorted, type.WellPlaced := fun type htype =>
    hplaced type (hperm.subset htype)
  have hdraw : ∀ type ∈ sorted, (draw ⟨catalog, settings⟩ type).result = .ok (text type) :=
    fun type htype => result_draw_of_drawNamed (hperm.subset htype)
      (htext type (hperm.subset htype))
  have hne : sorted.Pairwise fun a b => a.qualifiedName ≠ b.qualifiedName :=
    hsorted.imp ne_of_lt
  rw [writeAll, hlist] at hrun
  refine ⟨sorted, hperm, hsorted, ?_⟩
  have hout := Path.normal_ofString out
  obtain ⟨paths, mid, hmapM, hrun⟩ := Procedure.Runs.of_bind hrun
  rcases runs_mapM_writeOne hout hplaced hne hdraw hmapM with
    ⟨rfl, hfiles, hwritten⟩ | ⟨before, type, after, cause, rfl, rfl, hfiles, hwritten⟩
  · obtain ⟨hresult, rfl⟩ := (Procedure.Runs.of_report hrun).of_done
    exact ⟨hfiles, .inl ⟨hresult, hwritten⟩⟩
  · obtain ⟨hresult, rfl⟩ := hrun
    refine ⟨hfiles.mono (by simp), .inr ⟨before, type, after, cause, rfl, hresult, hwritten, ?_⟩⟩
    intro later hlater
    have hlate : later ∈ before ++ type :: after := by simp [hlater]
    apply hfiles.file?_artifact (hplaced later hlate)
    intro earlier hearlier
    rw [List.append_cons] at hplaced hne
    refine ⟨hplaced earlier (List.mem_append_left _ hearlier), ?_⟩
    exact (List.pairwise_append.mp hne).2.2 earlier hearlier later hlater

/-- A file stands where the directory of a package has to be: the diagrams up to that package
are written. -/
theorem runs_writeAll_blocked_package :
    let a : NamedType := { qualifiedName := "B", name := "B" }
    let b : NamedType := { qualifiedName := "p.A", name := "A", package := "p" }
    let fs : FileSystem :=
      { root := .directory [("o", .directory [("p", .file ByteArray.empty)])] }
    let text (type : NamedType) := "@startuml\nclass " ++ type.name ++ "\n\n@enduml\n"
    let d : Diagram := ⟨(Catalog.ofList [a, b]).value, {}⟩
    let left := (d.writeAll "o").run fs
    (d.catalog.types = [a, b] ∧ (∀ type ∈ [a, b], type.WellPlaced) ∧
        ∀ type ∈ [a, b], (d.drawNamed type.qualifiedName).result = .ok (text type)) ∧
      ∃ sorted, sorted.Perm [a, b] ∧ WritesOnly (.ofString "o") sorted fs left.files ∧
        ∃ before type after cause, sorted = before ++ type :: after ∧
          left.result =
            .error (.artifactNotWritten (type.artifactPath (.ofString "o")).text cause) ∧
          ∀ earlier ∈ before, IsWritten (.ofString "o") text left.files earlier := by
  intro a b fs text d left
  have htypes : d.catalog.types = [a, b] := by decide +kernel
  have hplaced : ∀ type ∈ [a, b], type.WellPlaced := by
    refine List.forall_mem_cons.mpr ⟨?_, List.forall_mem_singleton.mpr ?_⟩
    · exact ⟨by decide +kernel, fun h => absurd rfl h⟩
    · exact ⟨by decide +kernel, fun _ => ⟨by decide +kernel, "A", by decide⟩⟩
  have htext : ∀ type ∈ [a, b], (d.drawNamed type.qualifiedName).result = .ok (text type) := by
    refine List.forall_mem_cons.mpr ⟨?_, List.forall_mem_singleton.mpr ?_⟩
    · exact eq_ok_of_toOption (by decide +kernel)
    · exact eq_ok_of_toOption (by decide +kernel)
  have hsorted : d.sortedTypes = [a, b] := by
    rw [sortedTypes, htypes]
    exact List.mergeSort_of_pairwise (by decide +kernel)
  have hfails : left.result.toOption = none := by
    simp only [left, writeAll, hsorted]
    decide +kernel
  obtain ⟨sorted, hperm, -, hfiles, houtcome⟩ :=
    runs_writeAll (htypes ▸ hplaced) (htypes ▸ htext) ((d.writeAll "o").runs_run fs)
  refine ⟨⟨htypes, hplaced, htext⟩, sorted, htypes ▸ hperm, hfiles, ?_⟩
  rcases houtcome with ⟨hresult, -⟩ | ⟨before, type, after, cause, hsplit, hresult, hwritten, -⟩
  · change left.result = _ at hresult
    rw [hresult] at hfails
    contradiction
  · exact ⟨before, type, after, cause, hsplit, hresult, hwritten⟩

end Diagram

end ClassChart
