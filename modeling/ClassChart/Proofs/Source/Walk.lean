import ClassChart.Proofs.StableSort
import ClassChart.Proofs.Storage.FileSystem
import ClassChart.Source.Directory
import Mathlib.Data.String.Basic

/-!
The walk over the sources below a directory.  A new directory or a new file that is no source
changes neither the sources nor their order, and what is passed is read as before.
-/
namespace ClassChart

section

variable {β : Type}

theorem flatMap_filter_ne_nil (xs : List (String × List β)) :
    (xs.filter fun x => !x.2.isEmpty).flatMap Prod.snd = xs.flatMap Prod.snd := by
  induction xs with
  | nil => rfl
  | cons x rest ih =>
      obtain ⟨name, ys⟩ := x
      cases ys with
      | nil => simpa using ih
      | cons y ys => simp [ih]

/-- An entry that is empty adds nothing, wherever the order puts it. -/
theorem flatMap_sortByName_concat (xs : List (String × List β)) (name : String) :
    (sortByName (xs ++ [(name, [])])).flatMap Prod.snd = (sortByName xs).flatMap Prod.snd := by
  have hsort (ys : List (String × List β)) : (sortByName ys).filter (fun x => !x.2.isEmpty) =
      sortByName (ys.filter fun x => !x.2.isEmpty) :=
    filter_mergeSort (isLE_compare_trans Prod.fst) (isLE_compare_total Prod.fst) _ ys
  rw [← flatMap_filter_ne_nil, hsort, List.filter_append]
  simp [← hsort, flatMap_filter_ne_nil]

end

/-! The paths of entries. -/

/-- The path of an entry has the components of its directory and then its name. -/
theorem partsOf_entryPath (directory : String) {name : String} (hname : Path.IsName name) :
    Path.partsOf (entryPath directory name) = Path.partsOf directory ++ [name] := by
  unfold entryPath
  split
  · rename_i hslash
    rw [Bool.or_eq_true, decide_eq_true_eq] at hslash
    have hdivided : Path.Divided directory name := hslash.imp_right .inl
    rw [Path.partsOf_append_of_divided hdivided, hname.partsOf_eq]
  · rw [Path.partsOf_append, hname.partsOf_eq]

theorem rootOf_entryPath (directory : String) {name : String} (hname : Path.IsName name) :
    Path.rootOf (entryPath directory name) = Path.rootOf directory := by
  by_cases hempty : directory = ""
  · subst hempty
    exact Path.rootOf_of_lacks hname.lacks
  · unfold entryPath
    split
    · refine Path.rootOf_append hempty fun _ => ?_
      simpa using hname.beginsWith_append ""
    · rename_i hslash
      rw [String.append_assoc]
      refine Path.rootOf_append hempty fun hends => ?_
      simp [hends] at hslash

/-- A path read from a directory leads there and then down. -/
theorem partsOf_foldl_entryPath (directory : String) {names : List String}
    (hnames : ∀ name ∈ names, Path.IsName name) :
    Path.partsOf (names.foldl entryPath directory) = Path.partsOf directory ++ names := by
  induction names generalizing directory with
  | nil => rw [List.foldl_nil, List.append_nil]
  | cons name rest ih =>
      obtain ⟨hname, hrest⟩ := List.forall_mem_cons.mp hnames
      rw [List.foldl_cons, ih _ hrest, partsOf_entryPath directory hname, List.append_assoc,
        List.singleton_append]

theorem rootOf_foldl_entryPath (directory : String) {names : List String}
    (hnames : ∀ name ∈ names, Path.IsName name) :
    Path.rootOf (names.foldl entryPath directory) = Path.rootOf directory := by
  induction names generalizing directory with
  | nil => rfl
  | cons name rest ih =>
      obtain ⟨hname, hrest⟩ := List.forall_mem_cons.mp hnames
      rw [List.foldl_cons, ih _ hrest, rootOf_entryPath directory hname]

namespace Tree

variable {α β : Type}

/-- Trees in which a walk passes the same sources. -/
structure SameSources (t t' : Tree α) : Prop where
  isDirectory : t'.isDirectory = t.isDirectory
  sources (path : String) : t'.sources path = t.sources path

/-- The sources of a directory come first by name, and then those of its subdirectories by name. -/
theorem sources_directory (path : String) (entries : List (String × Tree α)) :
    (Tree.directory entries).sources path =
      ((sourceNames entries).mergeSort fun a b => (compare a b).isLE).map (entryPath path) ++
        (sortByName (sourcesBelow path entries)).flatMap Prod.snd := by
  rw [sources]

theorem sameSources_file (content content' : α) : SameSources (.file content) (.file content') :=
  ⟨rfl, fun path => by rw [sources, sources]⟩

/-- An entry that is a source. -/
def isSource (entry : String × Tree α) : Bool :=
  !entry.2.isDirectory && isSourceFile entry.1

/-- An entry that is a directory in which sources are looked for. -/
def isSearched (entry : String × Tree α) : Bool :=
  entry.2.isDirectory && !isSkippedDirectory entry.1

theorem sourceNames_eq (entries : List (String × Tree α)) :
    sourceNames entries = (entries.filter isSource).map Prod.fst := by
  induction entries with
  | nil => rfl
  | cons first rest ih =>
      obtain ⟨name, entry⟩ := first
      cases entry with
      | directory entries =>
          rw [sourceNames, ih]
          rfl
      | file content =>
          rw [sourceNames, ih, List.filter_cons]
          by_cases hname : isSourceFile name = true
          · simp [isSource, isDirectory, hname]
          · simp [isSource, isDirectory, hname]

/-- Only directories that are searched have sources below. -/
theorem sourcesBelow_eq (path : String) (entries : List (String × Tree α)) :
    sourcesBelow path entries = (entries.filter isSearched).map fun entry =>
      (entry.1, entry.2.sources (entryPath path entry.1)) := by
  induction entries with
  | nil =>
      rw [sourcesBelow]
      rfl
  | cons first rest ih =>
      obtain ⟨name, entry⟩ := first
      rw [sourcesBelow, ih, List.filter_cons]
      cases hkind : entry.isDirectory <;> cases hname : isSkippedDirectory name <;>
        simp [isSearched, hkind, hname]

theorem sourceNames_append (xs ys : List (String × Tree α)) :
    sourceNames (xs ++ ys) = sourceNames xs ++ sourceNames ys := by
  simp only [sourceNames_eq, List.filter_append, List.map_append]

theorem sourcesBelow_append (path : String) (xs ys : List (String × Tree α)) :
    sourcesBelow path (xs ++ ys) = sourcesBelow path xs ++ sourcesBelow path ys := by
  simp only [sourcesBelow_eq, List.filter_append, List.map_append]

section

variable {name : String} {entry entry' : Tree α} {entries : List (String × Tree α)}

theorem SameSources.sourceNames_cons (hsame : entry.SameSources entry') :
    sourceNames ((name, entry') :: entries) = sourceNames ((name, entry) :: entries) := by
  have hkind := hsame.isDirectory
  cases entry <;> cases entry' <;> simp_all [sourceNames, Tree.isDirectory]

theorem SameSources.sourcesBelow_cons (hsame : entry.SameSources entry') (path : String) :
    sourcesBelow path ((name, entry') :: entries) =
      sourcesBelow path ((name, entry) :: entries) := by
  rw [sourcesBelow, sourcesBelow, hsame.isDirectory, hsame.sources]

theorem sourceNames_setEntry (hlookup : entries.lookup name = some entry)
    (hsame : entry.SameSources entry') :
    sourceNames (setEntry name entry' entries) = sourceNames entries := by
  obtain ⟨before, after, hsplit, hset⟩ := exists_setEntry_eq hlookup
  rw [hset, hsplit, sourceNames_append, sourceNames_append, hsame.sourceNames_cons]

theorem sourcesBelow_setEntry (hlookup : entries.lookup name = some entry)
    (hsame : entry.SameSources entry') (path : String) :
    sourcesBelow path (setEntry name entry' entries) = sourcesBelow path entries := by
  obtain ⟨before, after, hsplit, hset⟩ := exists_setEntry_eq hlookup
  rw [hset, hsplit, sourcesBelow_append, sourcesBelow_append, hsame.sourcesBelow_cons]

/-- An entry may be replaced by one with the same sources. -/
theorem sameSources_setEntry (hlookup : entries.lookup name = some entry)
    (hsame : entry.SameSources entry') :
    SameSources (.directory entries) (.directory (setEntry name entry' entries)) where
  isDirectory := rfl
  sources path := by
    rw [sources_directory, sources_directory, sourceNames_setEntry hlookup hsame,
      sourcesBelow_setEntry hlookup hsame]

end

/-- A leaf that a walk will not pass when it stands at a place of a tree. -/
inductive Unseen (t : Tree α) (place : List String) : Tree α → Prop
  | directory (hplace : t.node? place = none) : Unseen t place (.directory [])
  | file (content : α) (hplace : t.node? place ≠ some .directory)
      (hname : ∀ name ∈ place.getLast?, isSourceFile name = false) : Unseen t place (.file content)

/-- A new entry without sources adds nothing. -/
theorem sameSources_append (entries : List (String × Tree α)) {name : String} {leaf : Tree α}
    (hleaf : Unseen (.directory entries) [name] leaf) :
    SameSources (.directory entries) (.directory (entries ++ [(name, leaf)])) where
  isDirectory := rfl
  sources path := by
    have hnames : sourceNames [(name, leaf)] = [] := by
      cases hleaf with
      | directory => rfl
      | file content _ hname => simp [sourceNames, hname name rfl]
    have hbelow : sourcesBelow path [(name, leaf)] = [] ∨
        sourcesBelow path [(name, leaf)] = [(name, [])] := by
      cases hleaf with
      | directory =>
          by_cases hskipped : isSkippedDirectory name = true
          · simp [sourcesBelow, hskipped]
          · simp [sourcesBelow, Tree.isDirectory, hskipped, sources, sourceNames, sortByName]
      | file content => simp [sourcesBelow, Tree.isDirectory]
    rw [sources_directory, sources_directory, sourceNames_append, hnames, List.append_nil,
      sourcesBelow_append]
    rcases hbelow with hnone | hempty
    · rw [hnone, List.append_nil]
    · rw [hempty, flatMap_sortByName_concat]

/-- Putting a leaf that a walk does not pass leaves all sources as they are. -/
theorem sameSources_put {t leaf : Tree α} {place : List String} (hleaf : Unseen t place leaf) :
    SameSources t (t.put leaf place) := by
  induction place generalizing t with
  | nil =>
      cases hleaf with
      | directory hplace => contradiction
      | file content hplace =>
          cases t with
          | file old => exact sameSources_file old content
          | directory entries => exact absurd rfl hplace
  | cons name rest ih =>
      cases t with
      | file content => exact sameSources_file content content
      | directory entries =>
          cases hlookup : entries.lookup name with
          | some entry =>
              rw [put_of_lookup hlookup]
              apply sameSources_setEntry hlookup
              apply ih
              cases hleaf with
              | directory hplace =>
                  rw [node?_of_lookup hlookup] at hplace
                  exact .directory hplace
              | file content hplace hname =>
                  rw [node?_of_lookup hlookup] at hplace
                  refine .file content hplace fun last hlast => hname last ?_
                  rw [List.getLast?_cons, hlast]
                  rfl
          | none =>
              by_cases hrest : rest = []
              · subst hrest
                rw [put, setEntry_eq_append hlookup]
                exact sameSources_append entries hleaf
              · rw [put_of_lookup_eq_none hlookup leaf hrest]
                exact ⟨rfl, fun _ => rfl⟩

/-- A leaf that is not seen at a place of a tree is not seen in the part of the tree on the way
there. -/
theorem Unseen.of_get? {t sub leaf : Tree α} {place below : List String}
    (hleaf : Unseen t (place ++ below) leaf) (hsub : t.get? place = some sub) :
    Unseen sub below leaf := by
  have hnode : t.node? (place ++ below) = sub.node? below := by
    rw [node?, get?_append, hsub, Option.bind_some, node?]
  cases hleaf with
  | directory hplace => exact .directory (hnode ▸ hplace)
  | file content hplace hname =>
      refine .file content (hnode ▸ hplace) fun name hlast => hname name ?_
      rw [List.getLast?_append, Option.mem_def.mp hlast]
      rfl

theorem Unseen.node?_ne_directory {t leaf : Tree α} {place : List String}
    (hleaf : Unseen t place leaf) : t.node? place ≠ some .directory := by
  cases hleaf with
  | directory hplace => simp [hplace]
  | file content hplace => exact hplace

/-- The sources below any entry stay as they are. -/
theorem exists_sameSources_get?_put {t sub leaf : Tree α} {place other : List String}
    (hleaf : Unseen t place leaf) (hsub : t.get? other = some sub) :
    ∃ sub', (t.put leaf place).get? other = some sub' ∧ SameSources sub sub' := by
  by_cases hprefix : other <+: place
  · obtain ⟨below, rfl⟩ := hprefix
    exact ⟨_, get?_put_append hsub leaf below, sameSources_put (hleaf.of_get? hsub)⟩
  · have hkept : (t.put leaf place).get? other = some sub :=
      get?_put_of_not_prefix hleaf.node?_ne_directory hsub hprefix
    exact ⟨sub, hkept, rfl, fun _ => rfl⟩

/-! What a walk passes. -/

theorem isDirectory_map (f : α → β) (t : Tree α) : (t.map f).isDirectory = t.isDirectory := by
  cases t <;> rw [Tree.map] <;> rfl

theorem sourceNames_mapEntries (f : α → β) (entries : List (String × Tree α)) :
    sourceNames (mapEntries f entries) = sourceNames entries := by
  induction entries with
  | nil => rw [mapEntries, sourceNames, sourceNames]
  | cons first rest ih =>
      obtain ⟨name, entry⟩ := first
      cases entry <;> rw [mapEntries, Tree.map, sourceNames, sourceNames, ih]

/-- The walk does not look into files. -/
theorem sources_map (f : α → β) (t : Tree α) (path : String) :
    (t.map f).sources path = t.sources path := by
  induction t using induction_on generalizing path with
  | file content => rw [Tree.map, sources, sources]
  | directory entries ih =>
      have hbelow : sourcesBelow path (mapEntries f entries) = sourcesBelow path entries := by
        induction entries with
        | nil => rw [mapEntries, sourcesBelow, sourcesBelow]
        | cons first rest ihrest =>
            obtain ⟨hfirst, hrest⟩ := List.forall_mem_cons.mp ih
            rw [mapEntries, sourcesBelow, sourcesBelow, isDirectory_map, hfirst, ihrest hrest]
      rw [Tree.map, sources_directory, sources_directory, sourceNames_mapEntries, hbelow]

/-- The names in each directory are different, and paths can be written with them. -/
inductive WellFormed : Tree α → Prop
  | file (content : α) : WellFormed (.file content)
  | directory {entries : List (String × Tree α)} (hnodup : (entries.map Prod.fst).Nodup)
      (hnames : ∀ entry ∈ entries, Path.IsName entry.1 ∧ entry.1 ≠ "..")
      (hentries : ∀ entry ∈ entries, WellFormed entry.2) : WellFormed (.directory entries)

theorem lookup_eq_some_of_mem {entries : List (String × Tree α)}
    (hnodup : (entries.map Prod.fst).Nodup) {name : String} {entry : Tree α}
    (hentry : (name, entry) ∈ entries) : entries.lookup name = some entry := by
  obtain ⟨before, after, rfl⟩ := List.append_of_mem hentry
  refine List.lookup_eq_some_iff.mpr ⟨before, after, rfl, ?_⟩
  intro other hother
  rw [List.map_append, List.nodup_append] at hnodup
  have hne := hnodup.2.2 other.1 (List.mem_map_of_mem hother) name (by simp)
  simpa using hne.symm

/-- The names on the way to an entry are names. -/
theorem WellFormed.of_get? {t entry : Tree α} (ht : t.WellFormed) {place : List String}
    (hentry : t.get? place = some entry) :
    entry.WellFormed ∧ ∀ name ∈ place, Path.IsName name ∧ name ≠ ".." := by
  induction place generalizing t with
  | nil =>
      cases Option.some.inj hentry
      exact ⟨ht, by simp⟩
  | cons name rest ih =>
      obtain ⟨entries, inner, rfl, hlookup, hinner⟩ := get?_eq_some_directory hentry
      obtain ⟨before, after, rfl, -⟩ := List.lookup_eq_some_iff.mp hlookup
      cases ht with
      | directory _ hnames hentries =>
          obtain ⟨hwell, hrest⟩ := ih (hentries (name, inner) (by simp)) hinner
          exact ⟨hwell, List.forall_mem_cons.mpr ⟨hnames (name, inner) (by simp), hrest⟩⟩

/-- The sources among entries are the files with the name of one. -/
theorem mem_sourceNames_iff {entries : List (String × Tree α)} {name : String} :
    name ∈ sourceNames entries ↔
      isSourceFile name = true ∧ ∃ content, (name, Tree.file content) ∈ entries := by
  simp only [sourceNames_eq, List.mem_map, List.mem_filter, isSource, Bool.and_eq_true,
    Bool.not_eq_true']
  constructor
  · rintro ⟨⟨found, entry⟩, ⟨hentry, hfile, hname⟩, rfl⟩
    cases entry with
    | file content => exact ⟨hname, content, hentry⟩
    | directory entries => contradiction
  · rintro ⟨hname, content, hentry⟩
    exact ⟨(name, .file content), ⟨hentry, rfl, hname⟩, rfl⟩

end Tree

/-! Reading what a walk has passed. -/

namespace FileSystem

theorem step_of_directory {root : Tree ByteArray} {place : List String}
    (hplace : root.node? place = some .directory) (name : String) :
    step root place name =
      if name = ".." then .ok place.dropLast
      else if nameLimit < name.utf8ByteSize then .error .nameTooLong
      else .ok (place ++ [name]) := by
  obtain ⟨entry, hentry, hnode⟩ := Option.map_eq_some_iff.mp hplace
  cases entry with
  | file content => contradiction
  | directory entries => rw [step, hentry]

/-- The way to an entry is the same where the directories on it are. -/
theorem foldlM_step_eq {root root' : Tree ByteArray}
    (hroot : ∀ place, root.node? place = some .directory → root'.node? place = some .directory)
    {names place : List String} (hnames : ∀ name ∈ names, name ≠ "..") {entry : Tree ByteArray}
    (hentry : root.get? (place ++ names) = some entry) :
    names.foldlM (step root') place = names.foldlM (step root) place := by
  induction names generalizing place with
  | nil => rfl
  | cons name rest ih =>
      obtain ⟨hname, hrest⟩ := List.forall_mem_cons.mp hnames
      have hdirectory : root.node? place = some .directory := by
        rw [Tree.get?_append] at hentry
        obtain ⟨inner, hinner, hentry⟩ := Option.bind_eq_some_iff.mp hentry
        obtain ⟨entries, -, rfl, -⟩ := Tree.get?_eq_some_directory hentry
        rw [Tree.node?, hinner]
        rfl
      rw [List.foldlM_cons, List.foldlM_cons, step_of_directory (hroot place hdirectory),
        step_of_directory hdirectory, if_neg hname]
      split
      · rfl
      · apply ih hrest
        rwa [List.append_assoc, List.singleton_append]

/-- The entries below a directory that is found are found, unless their path is empty or too long.
-/
theorem locate_foldl_entryPath {fs : FileSystem} {directory : String} {place : List String}
    (hplace : fs.locate directory = .ok place) {names : List String}
    (hnames : ∀ name ∈ names, Path.IsName name) :
    fs.locate (names.foldl entryPath directory) =
      if names.foldl entryPath directory = "" then .error .noEntry
      else if pathLimit < (names.foldl entryPath directory).utf8ByteSize then .error .nameTooLong
      else names.foldlM (step fs.root) place := by
  obtain ⟨-, -, hwalk⟩ := locate_eq_ok_iff.mp hplace
  rw [locate]
  simp only [rootOf_foldl_entryPath directory hnames,
    partsOf_foldl_entryPath directory hnames, List.foldlM_append, hwalk]
  rfl

variable {makes writes : Path → Prop} {fs fs' : FileSystem}

theorem read_of_error {path : String} {errno : Errno} (hpath : fs.locate path = .error errno) :
    fs.read path = .error ⟨errno, path⟩ := by
  rw [read, placeOf, hpath]
  rfl

theorem read_of_file {path : String} {place : List String} {content : ByteArray}
    (hpath : fs.locate path = .ok place) (hfile : fs.root.get? place = some (.file content)) :
    fs.read path = do
      fs.permit .read path place
      return content := by
  rw [read, placeOf_eq_ok_iff.mpr hpath, ok_bind, hfile]

/-- A file below a directory is read as before if it is not written to. -/
theorem Extends.read_eq (h : fs.Extends makes writes fs') (hrefusal : fs'.refusal = fs.refusal)
    {directory : String} {place : List String} (hplace : fs.locate directory = .ok place)
    {names : List String} (hnames : ∀ name ∈ names, Path.IsName name ∧ name ≠ "..")
    {content : ByteArray} (hfile : fs.root.get? (place ++ names) = some (.file content))
    (hother : ∀ p, writes p → place ++ names ≠ fs.destination p) :
    fs'.read (names.foldl entryPath directory) = fs.read (names.foldl entryPath directory) := by
  have hisName : ∀ name ∈ names, Path.IsName name := fun name hname => (hnames name hname).1
  have hdown : ∀ name ∈ names, name ≠ ".." := fun name hname => (hnames name hname).2
  have hlocate : fs'.locate (names.foldl entryPath directory) =
      fs.locate (names.foldl entryPath directory) := by
    rw [locate_foldl_entryPath hplace hisName, locate_foldl_entryPath (h.locate hplace) hisName,
      foldlM_step_eq h.directory hdown hfile]
  have hfile' : fs'.root.get? (place ++ names) = some (.file content) := by
    rw [← file?_eq_some_iff, h.file _ hother, file?_eq_some_iff]
    exact hfile
  cases hfound : fs.locate (names.foldl entryPath directory) with
  | error errno => rw [read_of_error hfound, read_of_error (hlocate.trans hfound)]
  | ok found =>
      have hwhere : found = place ++ names := by
        obtain ⟨hempty, hlong, -⟩ := locate_eq_ok_iff.mp hfound
        rw [locate_foldl_entryPath hplace hisName, if_neg hempty,
          if_neg (Nat.not_lt_of_le hlong)] at hfound
        rw [eq_foldl_descend hfound, foldl_descend_names hdown]
      subst hwhere
      rw [read_of_file hfound hfile, read_of_file (hlocate.trans hfound) hfile', permit, permit,
        hrefusal]

end FileSystem

end ClassChart
