import ClassChart.Proofs.Storage.Procedure

/-!
Requests for what is there already.  Making a directory that exists changes nothing, and
writing to a file that exists only replaces it.
-/
namespace ClassChart

variable {fs fs' : FileSystem} {p : Path}

namespace FileSystem

/-- A directory is not made again. -/
theorem makeDirectory_of_entry {path : String} {entry : Tree ByteArray}
    (hentry : fs.entry? path = some entry) : fs.makeDirectory path = .error ⟨.exists, path⟩ := by
  obtain ⟨place, hplace, hentry⟩ := entry?_eq_some_iff.mp hentry
  rw [makeDirectory, placeOf_eq_ok_iff.mpr hplace, ok_bind]
  simp only [hentry, Option.isSome_some, if_true]
  rfl

/-- The directory of what a path names can be named as well. -/
theorem exists_entry?_parent (hp : p.Normal) {above : List String} {name : String}
    (hparts : p.parts = above ++ [name]) {place : List String}
    (hplace : fs.locate p.text = .ok place) :
    ∃ entries, fs.entry? p.parent.text = some (.directory entries) := by
  obtain ⟨-, hlong, hwalk⟩ := locate_eq_ok_iff.mp hplace
  have hnormal : p.parent.Normal := hp.of_isAbove p.isAbove_parent
  have habove : p.parent.parts = above := by simp [Path.parent, hparts]
  rw [hp.partsOf_text, hparts, List.foldlM_append] at hwalk
  obtain ⟨around, haround, hlast⟩ := bind_eq_ok_iff.mp hwalk
  rw [List.foldlM_cons] at hlast
  obtain ⟨next, hnext, -⟩ := bind_eq_ok_iff.mp hlast
  obtain ⟨hdirectory, -, -⟩ := step_eq_ok_iff.mp hnext
  have hshort : p.parent.text.utf8ByteSize ≤ pathLimit := by
    rcases Path.utf8ByteSize_parent_le hparts with hdot | hless
    · rw [hdot]
      decide
    · exact Nat.le_trans hless hlong
  have hlocate : fs.locate p.parent.text = .ok around := by
    refine locate_eq_ok_iff.mpr ⟨hnormal.text_ne_empty, hshort, ?_⟩
    rw [hnormal.partsOf_text, habove]
    simp only [hp.rootOf_text_eq_empty_iff] at haround
    have hroot : p.parent.root = p.root := rfl
    simpa only [hnormal.rootOf_text_eq_empty_iff, hroot] using haround
  obtain ⟨entry, hentry, hnode⟩ := Option.map_eq_some_iff.mp hdirectory
  cases entry with
  | file content => contradiction
  | directory entries =>
      exact ⟨entries, entry?_eq_some_iff.mpr ⟨around, hlocate, hentry⟩⟩

/-- The file system with a file at a place. -/
def putFile (fs : FileSystem) (file : List String × ByteArray) : FileSystem :=
  { fs with root := fs.root.put (.file file.2) file.1 }

theorem foldl_putFile (files : List (List String × ByteArray)) (fs : FileSystem) :
    files.foldl putFile fs =
      { fs with root := files.foldl (fun t file => t.put (.file file.2) file.1) fs.root } := by
  induction files generalizing fs with
  | nil => rfl
  | cons file rest ih => rw [List.foldl_cons, ih, putFile, List.foldl_cons]

theorem refusal_putFile (fs : FileSystem) (file : List String × ByteArray) :
    (fs.putFile file).refusal = fs.refusal := rfl

/-- Writing over a file takes no file away. -/
theorem get?_putFile {file : List String × ByteArray} {place : List String}
    {old content : ByteArray} (hfile : fs.root.get? file.1 = some (.file old))
    (hplace : fs.root.get? place = some (.file content)) :
    ∃ left, (fs.putFile file).root.get? place = some (.file left) :=
  Tree.get?_put_file hfile hplace file.2

/-- A path that can be written to. -/
structure Rewritable (fs : FileSystem) (p : Path) : Prop where
  locate : fs.locate p.text = .ok (fs.destination p)
  refusal : fs.refusal .write (fs.destination p) = none

/-- A system that is only extended, and refuses nothing else, can be rewritten at the same paths. -/
theorem Rewritable.extends {makes writes : Path → Prop} (h : fs.Rewritable p)
    (hfiles : fs.Extends makes writes fs') (hrefusal : fs'.refusal = fs.refusal) :
    fs'.Rewritable p where
  locate := by
    rw [hfiles.destination]
    exact hfiles.locate h.locate
  refusal := by
    rw [hfiles.destination, hrefusal]
    exact h.refusal

/-- Writing a rewritable path puts a file at its destination. -/
theorem Rewritable.write (h : fs.Rewritable p)
    (hfree : fs.node? (fs.destination p) ≠ some .directory) (content : ByteArray) :
    fs.write p.text content = .ok (fs.putFile (fs.destination p, content)) :=
  write_eq_ok_iff.mpr ⟨_, h.locate, hfree, h.refusal, rfl⟩

theorem rewritable_of_write (hp : p.Normal) {content : ByteArray}
    (hwritten : fs.write p.text content = .ok fs') : fs'.Rewritable p := by
  have hfiles : fs.Extends (fun _ => False) (· = p) fs' := extends_write hp rfl hwritten
  obtain ⟨place, hplace, -, hrefusal, rfl⟩ := write_eq_ok_iff.mp hwritten
  obtain rfl := eq_destination_of_locate hp hplace
  exact Rewritable.extends ⟨hplace, hrefusal⟩ hfiles rfl

end FileSystem

namespace Procedure

/-- Where there is a directory already, nothing is done. -/
theorem run_make_of_directory {entries : List (String × Tree ByteArray)}
    (hentry : fs.entry? p.text = some (.directory entries))
    (otherwise : OsError → Procedure (Except OsError Unit)) :
    (makeDirectories.make p otherwise).run fs = ⟨.ok (.ok ()), [], fs⟩ := by
  have hthere : (fs.entry? p.text).map Tree.isDirectory = some true := by
    rw [hentry]
    rfl
  rw [makeDirectories.make, run, FileSystem.makeDirectory_of_entry hentry]
  simp only [reduceCtorEq, if_false, run, hthere, if_true]

/-- A directory that is there needs not be made. -/
theorem run_makeDirectories_of_directory {entries : List (String × Tree ByteArray)}
    (hentry : fs.entry? p.text = some (.directory entries)) :
    (makeDirectories p.root p.parts.reverse).run fs = ⟨.ok (.ok ()), [], fs⟩ := by
  obtain ⟨root, parts⟩ := p
  obtain ⟨names, rfl⟩ : ∃ names : List String, parts = names.reverse :=
    ⟨parts.reverse, (List.reverse_reverse parts).symm⟩
  rw [List.reverse_reverse]
  cases names with
  | nil => exact run_make_of_directory hentry _
  | cons name above => exact run_make_of_directory hentry _

end Procedure

end ClassChart
