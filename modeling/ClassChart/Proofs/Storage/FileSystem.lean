import ClassChart.Proofs.Journal
import ClassChart.Proofs.Storage.Path
import ClassChart.Proofs.Storage.Tree
import ClassChart.Storage.FileSystem

/-!
What the operations on a file system change.  Making a directory or writing a file changes
one place, the one that the path leads to.  Directories stay, so what a path leads to stays
as well.
-/
namespace ClassChart

namespace FileSystem

/-- What stands at a place. -/
def node? (fs : FileSystem) (place : List String) : Option (Tree.Node ByteArray) :=
  fs.root.node? place

/-- The content of the file at a place. -/
def file? (fs : FileSystem) (place : List String) : Option ByteArray :=
  match fs.node? place with
  | some (.file content) => some content
  | _ => none

/-- The place that one more component of a path leads to. -/
def descend (place : List String) (name : String) : List String :=
  if name = ".." then place.dropLast else place ++ [name]

/-- The place that a path leads to as soon as the directories on the way exist. -/
def destination (fs : FileSystem) (p : Path) : List String :=
  p.parts.foldl descend (if p.root = "" then fs.workingDirectory else [])

/-- Names that do not lead upwards are followed one by one. -/
theorem foldl_descend_names {names : List String} (hnames : ∀ name ∈ names, name ≠ "..")
    (start : List String) : names.foldl descend start = start ++ names := by
  induction names generalizing start with
  | nil => rw [List.foldl_nil, List.append_nil]
  | cons name rest ih =>
      obtain ⟨hname, hrest⟩ := List.forall_mem_cons.mp hnames
      rw [List.foldl_cons, descend, if_neg hname, ih hrest, List.append_assoc,
        List.singleton_append]

theorem file?_eq_some_iff {fs : FileSystem} {place : List String} {content : ByteArray} :
    fs.file? place = some content ↔ fs.root.get? place = some (.file content) := by
  unfold file? node? Tree.node?
  cases fs.root.get? place with
  | none => simp
  | some entry => cases entry <;> simp [Tree.node]

/-- There is an entry at a path exactly if the path leads to a place that has one. -/
theorem entry?_eq_some_iff {fs : FileSystem} {path : String} {entry : Tree ByteArray} :
    fs.entry? path = some entry ↔
      ∃ place, fs.locate path = .ok place ∧ fs.root.get? place = some entry := by
  unfold entry?
  cases fs.locate path <;> simp

theorem entry?_eq_some_file_iff {fs : FileSystem} {path : String} {content : ByteArray} :
    fs.entry? path = some (.file content) ↔
      ∃ place, fs.locate path = .ok place ∧ fs.file? place = some content := by
  simp only [entry?_eq_some_iff, file?_eq_some_iff]

/-! Finding places. -/

/-- A step can be taken from a directory only, and by a name that is not too long. -/
theorem step_eq_ok_iff {root : Tree ByteArray} {place next : List String} {name : String} :
    step root place name = .ok next ↔
      root.node? place = some .directory ∧ (name = ".." ∨ name.utf8ByteSize ≤ nameLimit) ∧
        next = descend place name := by
  unfold step Tree.node? descend
  cases hentry : root.get? place with
  | none => simp
  | some entry =>
      cases entry with
      | file content => simp [Tree.node]
      | directory entries =>
          by_cases hup : name = ".."
          · simp [hup, Tree.node, eq_comm]
          · by_cases hlong : nameLimit < name.utf8ByteSize
            · simp [hup, hlong, Nat.not_le_of_lt]
            · simp [hup, hlong, Tree.node, eq_comm, Nat.le_of_not_lt]

/-- A walk ends where the components lead to. -/
theorem eq_foldl_descend {root : Tree ByteArray} {names start place : List String}
    (hplace : names.foldlM (step root) start = .ok place) : place = names.foldl descend start := by
  induction names generalizing start with
  | nil =>
      cases hplace
      rfl
  | cons name rest ih =>
      rw [List.foldlM_cons] at hplace
      obtain ⟨next, hnext, hrest⟩ := bind_eq_ok_iff.mp hplace
      rw [List.foldl_cons, ← (step_eq_ok_iff.mp hnext).2.2]
      exact ih hrest

/-- A walk goes the same way where there are more directories. -/
theorem foldlM_step_mono {root root' : Tree ByteArray}
    (hroot : ∀ place, root.node? place = some .directory → root'.node? place = some .directory)
    {names start place : List String} (hplace : names.foldlM (step root) start = .ok place) :
    names.foldlM (step root') start = .ok place := by
  induction names generalizing start with
  | nil => exact hplace
  | cons name rest ih =>
      rw [List.foldlM_cons] at hplace ⊢
      obtain ⟨next, hnext, hrest⟩ := bind_eq_ok_iff.mp hplace
      obtain ⟨hstart, hname, hdescend⟩ := step_eq_ok_iff.mp hnext
      apply bind_eq_ok_iff.mpr
      exact ⟨next, step_eq_ok_iff.mpr ⟨hroot start hstart, hname, hdescend⟩, ih hrest⟩

/-- A path leads to a place exactly if it is neither empty nor too long and all its steps can be
taken. -/
theorem locate_eq_ok_iff {fs : FileSystem} {path : String} {place : List String} :
    fs.locate path = .ok place ↔ path ≠ "" ∧ path.utf8ByteSize ≤ pathLimit ∧
      (Path.partsOf path).foldlM (step fs.root)
        (if Path.rootOf path = "" then fs.workingDirectory else []) = .ok place := by
  unfold locate
  by_cases hempty : path = ""
  · simp [hempty]
  · by_cases hlong : pathLimit < path.utf8ByteSize
    · simp [hempty, hlong, Nat.not_le_of_lt]
    · simp [hempty, hlong, Nat.le_of_not_lt]

/-- A path that can be located is located at its destination. -/
theorem eq_destination_of_locate {fs : FileSystem} {p : Path} (hp : p.Normal)
    {place : List String} (hplace : fs.locate p.text = .ok place) : place = fs.destination p := by
  obtain ⟨-, -, hwalk⟩ := locate_eq_ok_iff.mp hplace
  rw [hp.partsOf_text] at hwalk
  simp only [hp.rootOf_text_eq_empty_iff] at hwalk
  exact eq_foldl_descend hwalk

/-- What a path names is in a directory. -/
theorem exists_directory_of_locate {fs : FileSystem} {p : Path} (hp : p.Normal)
    {above : List String} {name : String} (hparts : p.parts = above ++ [name])
    (hname : name ≠ "..") {place : List String} (hplace : fs.locate p.text = .ok place) :
    ∃ around entries, place = around ++ [name] ∧
      fs.root.get? around = some (.directory entries) := by
  obtain ⟨-, -, hwalk⟩ := locate_eq_ok_iff.mp hplace
  rw [hp.partsOf_text, hparts, List.foldlM_append] at hwalk
  obtain ⟨around, -, hlast⟩ := bind_eq_ok_iff.mp hwalk
  rw [List.foldlM_cons] at hlast
  obtain ⟨next, hnext, hlast⟩ := bind_eq_ok_iff.mp hlast
  cases hlast
  obtain ⟨haround, -, rfl⟩ := step_eq_ok_iff.mp hnext
  obtain ⟨entry, hentry, hnode⟩ := Option.map_eq_some_iff.mp haround
  cases entry with
  | file content => contradiction
  | directory entries => exact ⟨around, entries, if_neg hname, hentry⟩

/-! What changes. -/

theorem placeOf_eq_ok_iff {fs : FileSystem} {path : String} {place : List String} :
    fs.placeOf path = .ok place ↔ fs.locate path = .ok place := by
  unfold placeOf
  cases fs.locate path with
  | error e =>
      constructor
      · intro h
        contradiction
      · intro h
        contradiction
  | ok found =>
      change (Except.ok found : Except OsError (List String)) = .ok place ↔ _
      rw [Except.ok.injEq, Except.ok.injEq]

/-- A directory is made only where there is nothing yet, and nothing else changes. -/
theorem makeDirectory_eq_ok {fs fs' : FileSystem} {path : String}
    (hmade : fs.makeDirectory path = .ok fs') :
    ∃ place, fs.locate path = .ok place ∧ fs.node? place = none ∧
      fs' = { fs with root := fs.root.put (.directory []) place } := by
  obtain ⟨place, hplace, hmade⟩ := bind_eq_ok_iff.mp hmade
  refine ⟨place, placeOf_eq_ok_iff.mp hplace, ?_⟩
  unfold node? Tree.node?
  cases hentry : fs.root.get? place with
  | some entry =>
      simp only [hentry, Option.isSome_some, if_true] at hmade
      contradiction
  | none =>
      simp only [hentry, Option.isSome_none, Bool.false_eq_true, if_false] at hmade
      obtain ⟨-, -, hmade⟩ := bind_eq_ok_iff.mp hmade
      cases hmade
      exact ⟨rfl, rfl⟩

theorem permit_eq_ok_iff {fs : FileSystem} {access : Access} {path : String}
    {place : List String} :
    fs.permit access path place = .ok () ↔ fs.refusal access place = none := by
  unfold permit
  cases fs.refusal access place <;> simp

/-- A file is written exactly if its place can be reached, is no directory and is not refused. -/
theorem write_eq_ok_iff {fs fs' : FileSystem} {path : String} {content : ByteArray} :
    fs.write path content = .ok fs' ↔
      ∃ place, fs.locate path = .ok place ∧ fs.node? place ≠ some .directory ∧
        fs.refusal .write place = none ∧
        { fs with root := fs.root.put (.file content) place } = fs' := by
  unfold write
  rw [bind_eq_ok_iff]
  refine exists_congr fun place => and_congr placeOf_eq_ok_iff ?_
  have hlast : (do
      fs.permit .write path place
      return { fs with root := fs.root.put (.file content) place }) = Except.ok fs' ↔
        fs.refusal .write place = none ∧
          { fs with root := fs.root.put (.file content) place } = fs' := by
    rw [bind_eq_ok_iff]
    constructor
    · rintro ⟨⟨⟩, hpermit, hleft⟩
      exact ⟨permit_eq_ok_iff.mp hpermit, Except.ok.inj hleft⟩
    · rintro ⟨hrefusal, hleft⟩
      exact ⟨(), permit_eq_ok_iff.mpr hrefusal, congrArg Except.ok hleft⟩
  unfold node? Tree.node?
  cases fs.root.get? place with
  | none => exact hlast.trans (by simp)
  | some entry =>
      cases entry with
      | directory entries =>
          refine iff_of_false ?_ (by simp [Tree.node])
          intro h
          contradiction
      | file old => exact hlast.trans (by simp [Tree.node])

/-- What stays and what may be new: directories stay, files stay except where the paths of
`writes` lead, and new directories are only where the paths of `makes` lead. -/
structure Extends (makes writes : Path → Prop) (fs fs' : FileSystem) : Prop where
  workingDirectory : fs'.workingDirectory = fs.workingDirectory
  directory (place : List String) : fs.node? place = some .directory →
    fs'.node? place = some .directory
  file (place : List String) : (∀ p, writes p → place ≠ fs.destination p) →
    fs'.file? place = fs.file? place
  made (place : List String) : fs'.node? place = some .directory →
    fs.node? place = some .directory ∨ ∃ p, makes p ∧ place = fs.destination p

variable {makes writes : Path → Prop} {fs fs' fs'' : FileSystem}

namespace Extends

theorem refl (makes writes : Path → Prop) (fs : FileSystem) : fs.Extends makes writes fs :=
  ⟨rfl, fun _ h => h, fun _ _ => rfl, fun _ h => .inl h⟩

theorem destination (h : fs.Extends makes writes fs') (p : Path) :
    fs'.destination p = fs.destination p := by
  rw [FileSystem.destination, h.workingDirectory, FileSystem.destination]

theorem trans (h : fs.Extends makes writes fs') (h' : fs'.Extends makes writes fs'') :
    fs.Extends makes writes fs'' where
  workingDirectory := h'.workingDirectory.trans h.workingDirectory
  directory place hplace := h'.directory place (h.directory place hplace)
  file place hplace := by
    have hother : ∀ p, writes p → place ≠ fs'.destination p := by
      intro p hp
      rw [h.destination]
      exact hplace p hp
    exact (h'.file place hother).trans (h.file place hplace)
  made place hplace := by
    rcases h'.made place hplace with hold | ⟨p, hp, hnew⟩
    · exact h.made place hold
    · rw [h.destination] at hnew
      exact .inr ⟨p, hp, hnew⟩

/-- The paths that may be made and written can be taken more widely. -/
theorem mono (h : fs.Extends makes writes fs') {makes' writes' : Path → Prop}
    (hmakes : ∀ p, makes p → makes' p) (hwrites : ∀ p, writes p → writes' p) :
    fs.Extends makes' writes' fs' where
  workingDirectory := h.workingDirectory
  directory := h.directory
  file place hplace := h.file place fun p hp => hplace p (hwrites p hp)
  made place hplace := by
    rcases h.made place hplace with hold | ⟨p, hp, hnew⟩
    · exact .inl hold
    · exact .inr ⟨p, hmakes p hp, hnew⟩

/-- In an extended system all paths lead to where they led before. -/
theorem locate (h : fs.Extends makes writes fs') {path : String} {place : List String}
    (hplace : fs.locate path = .ok place) : fs'.locate path = .ok place := by
  obtain ⟨hempty, hlong, hwalk⟩ := locate_eq_ok_iff.mp hplace
  rw [locate_eq_ok_iff, h.workingDirectory]
  exact ⟨hempty, hlong, foldlM_step_mono h.directory hwalk⟩

/-- A file that is found is found again unless its place is written to. -/
theorem entry? (h : fs.Extends makes writes fs') {p : Path} (hp : p.Normal)
    (hother : ∀ q, writes q → fs.destination p ≠ fs.destination q) {content : ByteArray}
    (hentry : fs.entry? p.text = some (.file content)) :
    fs'.entry? p.text = some (.file content) := by
  obtain ⟨place, hplace, hfile⟩ := entry?_eq_some_file_iff.mp hentry
  obtain rfl := eq_destination_of_locate hp hplace
  refine entry?_eq_some_file_iff.mpr ⟨_, h.locate hplace, ?_⟩
  rw [h.file _ hother, hfile]

end Extends

section

variable {p : Path} (hp : p.Normal)

include hp

/-- Making a directory adds one where the path leads. -/
theorem extends_makeDirectory (hmakes : makes p) (hmade : fs.makeDirectory p.text = .ok fs') :
    fs.Extends makes writes fs' := by
  obtain ⟨target, htarget, hnone, rfl⟩ := makeDirectory_eq_ok hmade
  obtain rfl := eq_destination_of_locate hp htarget
  have hfree : fs.node? (fs.destination p) ≠ some .directory := by simp [hnone]
  have hother {place : List String} (hplace : place ≠ fs.destination p) :
      (fs.root.put (.directory []) (fs.destination p)).node? place = fs.node? place :=
    Tree.node?_put_of_ne rfl hfree hplace
  refine ⟨rfl, fun place hplace => ?_, fun place _ => ?_, fun place hplace => ?_⟩
  · rw [node?, hother (fun heq => hfree (heq ▸ hplace)), hplace]
  · by_cases hplace : place = fs.destination p
    · subst hplace
      rcases Tree.node?_put_self fs.root (.directory []) (fs.destination p) with hold | hnew
      · simp only [file?, node?, hold]
      · simp only [file?, hnone]
        simp only [node?, hnew, Tree.node]
    · simp only [file?]
      rw [node?, hother hplace]
  · by_cases heq : place = fs.destination p
    · exact .inr ⟨p, hmakes, heq⟩
    · rw [node?, hother heq] at hplace
      exact .inl hplace

/-- Writing a file changes what stands where the path leads. -/
theorem extends_write {content : ByteArray} (hwrites : writes p)
    (hwritten : fs.write p.text content = .ok fs') : fs.Extends makes writes fs' := by
  obtain ⟨target, htarget, hfree, -, rfl⟩ := write_eq_ok_iff.mp hwritten
  obtain rfl := eq_destination_of_locate hp htarget
  have hother {place : List String} (hplace : place ≠ fs.destination p) :
      (fs.root.put (.file content) (fs.destination p)).node? place = fs.node? place :=
    Tree.node?_put_of_ne rfl hfree hplace
  refine ⟨rfl, fun place hplace => ?_, fun place hplace => ?_, fun place hplace => ?_⟩
  · rw [node?, hother (fun heq => hfree (heq ▸ hplace)), hplace]
  · simp only [file?]
    rw [node?, hother (hplace p hwrites)]
  · by_cases heq : place = fs.destination p
    · subst heq
      rcases Tree.node?_put_self fs.root (.file content) (fs.destination p) with hold | hnew
      · rw [node?, hold] at hplace
        exact .inl hplace
      · rw [node?, hnew] at hplace
        simp [Tree.node] at hplace
    · rw [node?, hother heq] at hplace
      exact .inl hplace

/-- What has been written is found. -/
theorem entry?_write {content : ByteArray} {above : List String} {name : String}
    (hparts : p.parts = above ++ [name]) (hname : name ≠ "..")
    (hwritten : fs.write p.text content = .ok fs') :
    fs'.entry? p.text = some (.file content) := by
  have hextends : fs.Extends (fun _ => False) (· = p) fs' := extends_write hp rfl hwritten
  obtain ⟨target, htarget, -, -, rfl⟩ := write_eq_ok_iff.mp hwritten
  obtain ⟨around, entries, rfl, haround⟩ := exists_directory_of_locate hp hparts hname htarget
  refine entry?_eq_some_file_iff.mpr ⟨_, hextends.locate htarget, file?_eq_some_iff.mpr ?_⟩
  exact Tree.get?_put_self fs.root (.file content) around name entries haround

end

end FileSystem

end ClassChart
