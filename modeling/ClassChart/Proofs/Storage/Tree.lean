import ClassChart.Storage.Tree

/-!
A tree seen place by place: at each place a file with its content, a directory, or nothing.
Putting a leaf changes one place of this view.
-/
namespace ClassChart

namespace Tree

variable {α : Type}

/-- What stands at a place, without what stands below it. -/
inductive Node (α : Type) where
  | file (content : α)
  | directory
deriving Repr, DecidableEq, Inhabited

def node : Tree α → Node α
  | .file content => .file content
  | .directory _ => .directory

/-- The view of a tree place by place. -/
def node? (t : Tree α) (place : List String) : Option (Node α) :=
  (t.get? place).map node

/-- The view of a tree shows its files and what is in them. -/
theorem node?_eq_some_file_iff {t : Tree α} {place : List String} {content : α} :
    t.node? place = some (.file content) ↔ t.get? place = some (.file content) := by
  unfold node?
  cases t.get? place with
  | none => simp
  | some entry => cases entry <;> simp [node]

theorem get?_directory (entries : List (String × Tree α)) (name : String) (place : List String) :
    (Tree.directory entries).get? (name :: place) =
      (entries.lookup name).bind (·.get? place) := by
  rw [get?, Tree.entries]
  cases entries.lookup name <;> rfl

theorem get?_eq_none_of_entries {t : Tree α} (ht : t.entries = []) {place : List String}
    (hplace : place ≠ []) : t.get? place = none := by
  cases place with
  | nil => contradiction
  | cons name rest => simp [get?, ht]

theorem entries_of_node?_ne_directory {t : Tree α} (ht : t.node? [] ≠ some .directory) :
    t.entries = [] := by
  cases t with
  | file content => rfl
  | directory entries => exact absurd rfl ht

/-- A changed entry is not seen under other names. -/
theorem node?_setEntry_of_ne {name first : String} (hfirst : first ≠ name) (entry : Tree α)
    (entries : List (String × Tree α)) (rest : List String) :
    (Tree.directory (setEntry name entry entries)).node? (first :: rest) =
      (Tree.directory entries).node? (first :: rest) := by
  simp only [node?, get?_directory, lookup_setEntry_of_ne hfirst]

theorem node?_setEntry_self (name : String) (entry : Tree α) (entries : List (String × Tree α))
    (rest : List String) :
    (Tree.directory (setEntry name entry entries)).node? (name :: rest) = entry.node? rest := by
  simp only [node?, get?_directory, lookup_setEntry_self, Option.bind_some]

/-- What is seen below an entry is seen in the directory by way of its name. -/
theorem node?_of_lookup {name : String} {entry : Tree α} {entries : List (String × Tree α)}
    (hlookup : entries.lookup name = some entry) (rest : List String) :
    (Tree.directory entries).node? (name :: rest) = entry.node? rest := by
  simp only [node?, get?_directory, hlookup, Option.bind_some]

theorem put_of_lookup {name : String} {entry : Tree α} {entries : List (String × Tree α)}
    (hlookup : entries.lookup name = some entry) (new : Tree α) (rest : List String) :
    (Tree.directory entries).put new (name :: rest) =
      .directory (setEntry name (entry.put new rest) entries) := by
  cases rest with
  | nil => rfl
  | cons second further => simp only [put, hlookup]

/-- Nothing is put into a directory that is not there. -/
theorem put_of_lookup_eq_none {name : String} {entries : List (String × Tree α)}
    (hlookup : entries.lookup name = none) (new : Tree α) {rest : List String} (hrest : rest ≠ []) :
    (Tree.directory entries).put new (name :: rest) = .directory entries := by
  cases rest with
  | nil => contradiction
  | cons second further => simp only [put, hlookup]

/-- A leaf that is put where no directory is changes the view at its place only. -/
theorem node?_put_of_ne {new : Tree α} (hnew : new.entries = []) {t : Tree α}
    {place other : List String} (hplace : t.node? place ≠ some .directory)
    (hother : other ≠ place) : (t.put new place).node? other = t.node? other := by
  induction place generalizing t other with
  | nil =>
      rw [put, node?, node?, get?_eq_none_of_entries hnew hother,
        get?_eq_none_of_entries (entries_of_node?_ne_directory hplace) hother]
  | cons name rest ih =>
      cases t with
      | file content => rfl
      | directory entries =>
          cases hlookup : entries.lookup name with
          | some entry =>
              rw [put_of_lookup hlookup]
              rw [node?_of_lookup hlookup] at hplace
              cases other with
              | nil => rfl
              | cons first more =>
                  by_cases hfirst : first = name
                  · subst hfirst
                    rw [node?_setEntry_self, node?_of_lookup hlookup]
                    apply ih hplace
                    rintro rfl
                    exact hother rfl
                  · exact node?_setEntry_of_ne hfirst _ entries more
          | none =>
              by_cases hrest : rest = []
              · subst hrest
                rw [put]
                cases other with
                | nil => rfl
                | cons first more =>
                    by_cases hfirst : first = name
                    · subst hfirst
                      have hmore : more ≠ [] := by
                        rintro rfl
                        exact hother rfl
                      rw [node?_setEntry_self, node?, get?_eq_none_of_entries hnew hmore]
                      simp [node?, get?_directory, hlookup]
                    · exact node?_setEntry_of_ne hfirst new entries more
              · rw [put_of_lookup_eq_none hlookup new hrest]

/-- Putting a tree leaves a place as it is or makes it the root of that tree. -/
theorem node?_put_self (t new : Tree α) (place : List String) :
    (t.put new place).node? place = t.node? place ∨
      (t.put new place).node? place = some new.node := by
  induction place generalizing t with
  | nil => exact .inr rfl
  | cons name rest ih =>
      cases t with
      | file content => exact .inl rfl
      | directory entries =>
          cases hlookup : entries.lookup name with
          | some entry =>
              rw [put_of_lookup hlookup, node?_setEntry_self, node?_of_lookup hlookup]
              exact ih entry
          | none =>
              by_cases hrest : rest = []
              · subst hrest
                rw [put, node?_setEntry_self]
                exact .inr rfl
              · rw [put_of_lookup_eq_none hlookup new hrest]
                exact .inl rfl

/-! The same tree after several changes. -/

theorem setEntry_eq_append {name : String} {entries : List (String × Tree α)}
    (hnone : entries.lookup name = none) (entry : Tree α) :
    setEntry name entry entries = entries ++ [(name, entry)] := by
  induction entries with
  | nil => rfl
  | cons other rest ih =>
      rw [List.lookup_cons] at hnone
      by_cases hname : other.1 = name
      · simp [hname] at hnone
      · have hne : (name == other.1) = false := by simpa using Ne.symm hname
        rw [hne] at hnone
        rw [setEntry, if_neg hname, ih hnone, List.cons_append]

/-- An entry that exists is replaced where it stands. -/
theorem exists_setEntry_eq {name : String} {entry : Tree α} {entries : List (String × Tree α)}
    (hlookup : entries.lookup name = some entry) :
    ∃ before after, entries = before ++ (name, entry) :: after ∧
      ∀ new, setEntry name new entries = before ++ (name, new) :: after := by
  obtain ⟨before, after, rfl, hbefore⟩ := List.lookup_eq_some_iff.mp hlookup
  refine ⟨before, after, rfl, fun new => ?_⟩
  clear hlookup
  induction before with
  | nil => simp [setEntry]
  | cons other rest ih =>
      obtain ⟨hother, hrest⟩ := List.forall_mem_cons.mp hbefore
      have hne : other.1 ≠ name := (bne_iff_ne.mp hother).symm
      rw [List.cons_append, setEntry, if_neg hne, ih hrest, List.cons_append]

/-- Setting an entry to what it is changes nothing. -/
theorem setEntry_lookup {name : String} {entry : Tree α} {entries : List (String × Tree α)}
    (hlookup : entries.lookup name = some entry) : setEntry name entry entries = entries := by
  obtain ⟨before, after, hsplit, hset⟩ := exists_setEntry_eq hlookup
  rw [hset, hsplit]

/-- Of two entries under one name the later counts. -/
theorem setEntry_setEntry_self (name : String) (entry later : Tree α)
    (entries : List (String × Tree α)) :
    setEntry name later (setEntry name entry entries) = setEntry name later entries := by
  induction entries with
  | nil => simp [setEntry]
  | cons other rest ih =>
      by_cases hname : other.1 = name
      · simp [setEntry, hname]
      · simp [setEntry, hname, ih]

/-- Entries that exist are set in any order. -/
theorem setEntry_comm {name other : String} (hne : name ≠ other) (entry entry' : Tree α)
    {entries : List (String × Tree α)} (hsome : (entries.lookup name).isSome) :
    setEntry other entry' (setEntry name entry entries) =
      setEntry name entry (setEntry other entry' entries) := by
  induction entries with
  | nil => contradiction
  | cons first rest ih =>
      by_cases hname : first.1 = name
      · simp [setEntry, hname, hne]
      · by_cases hother : first.1 = other
        · simp [setEntry, hother, Ne.symm hne]
        · have hfirst : (name == first.1) = false := by simpa using Ne.symm hname
          rw [List.lookup_cons, hfirst] at hsome
          simp [setEntry, hname, hother, ih hsome]

/-- A place below the top leads through an entry of a directory. -/
theorem get?_eq_some_directory {t entry : Tree α} {name : String} {place : List String}
    (hentry : t.get? (name :: place) = some entry) :
    ∃ entries inner, t = .directory entries ∧ entries.lookup name = some inner ∧
      inner.get? place = some entry := by
  cases t with
  | file content => simp [get?, Tree.entries] at hentry
  | directory entries =>
      rw [get?_directory] at hentry
      obtain ⟨inner, hlookup, hinner⟩ := Option.bind_eq_some_iff.mp hentry
      exact ⟨entries, inner, rfl, hlookup, hinner⟩

theorem put_get? {t entry : Tree α} {place : List String} (hentry : t.get? place = some entry) :
    t.put entry place = t := by
  induction place generalizing t with
  | nil => exact (Option.some.inj hentry).symm
  | cons name rest ih =>
      obtain ⟨entries, inner, rfl, hlookup, hinner⟩ := get?_eq_some_directory hentry
      rw [put_of_lookup hlookup, ih hinner, setEntry_lookup hlookup]

/-- Of two trees that are put at one place the later stays. -/
theorem put_put_self (t new later : Tree α) (place : List String) :
    (t.put new place).put later place = t.put later place := by
  induction place generalizing t with
  | nil => rfl
  | cons name rest ih =>
      cases t with
      | file content => rfl
      | directory entries =>
          cases hlookup : entries.lookup name with
          | some entry =>
              rw [put_of_lookup hlookup, put_of_lookup hlookup,
                put_of_lookup (lookup_setEntry_self ..), ih, setEntry_setEntry_self]
          | none =>
              by_cases hrest : rest = []
              · subst hrest
                simp only [put, setEntry_setEntry_self]
              · rw [put_of_lookup_eq_none hlookup new hrest]

/-- Files that exist are replaced in any order. -/
theorem put_comm {t new new' : Tree α} {place place' : List String} {content content' : α}
    (hplace : t.get? place = some (.file content))
    (hplace' : t.get? place' = some (.file content')) (hne : place ≠ place') :
    (t.put new place).put new' place' = (t.put new' place').put new place := by
  induction place generalizing t place' with
  | nil =>
      cases Option.some.inj hplace
      rw [get?_eq_none_of_entries rfl hne.symm] at hplace'
      contradiction
  | cons name rest ih =>
      obtain ⟨entries, inner, rfl, hlookup, hinner⟩ := get?_eq_some_directory hplace
      cases place' with
      | nil => nomatch Option.some.inj hplace'
      | cons name' rest' =>
          rw [get?_directory] at hplace'
          obtain ⟨inner', hlookup', hinner'⟩ := Option.bind_eq_some_iff.mp hplace'
          by_cases hname : name = name'
          · subst hname
            rw [hlookup, Option.some.injEq] at hlookup'
            subst hlookup'
            have hrest : rest ≠ rest' := by
              rintro rfl
              exact hne rfl
            rw [put_of_lookup hlookup, put_of_lookup hlookup,
              put_of_lookup (lookup_setEntry_self ..), put_of_lookup (lookup_setEntry_self ..),
              setEntry_setEntry_self, setEntry_setEntry_self, ih hinner hinner' hrest]
          · have hkept : (setEntry name (inner.put new rest) entries).lookup name' =
                some inner' := by
              rw [lookup_setEntry_of_ne (Ne.symm hname), hlookup']
            have hkept' : (setEntry name' (inner'.put new' rest') entries).lookup name =
                some inner := by
              rw [lookup_setEntry_of_ne hname, hlookup]
            rw [put_of_lookup hlookup, put_of_lookup hlookup', put_of_lookup hkept,
              put_of_lookup hkept', setEntry_comm hname _ _ (by rw [hlookup]; rfl)]

/-! What stands below a place. -/

theorem get?_append (t : Tree α) (place below : List String) :
    t.get? (place ++ below) = (t.get? place).bind (·.get? below) := by
  induction place generalizing t with
  | nil => rfl
  | cons name rest ih =>
      rw [List.cons_append, get?, get?]
      cases t.entries.lookup name with
      | none => rfl
      | some entry => exact ih entry

/-- What is put below a place is put into the tree at that place. -/
theorem get?_put_append {t sub : Tree α} {place : List String} (hsub : t.get? place = some sub)
    (new : Tree α) (below : List String) :
    (t.put new (place ++ below)).get? place = some (sub.put new below) := by
  induction place generalizing t with
  | nil =>
      cases Option.some.inj hsub
      rfl
  | cons name rest ih =>
      obtain ⟨entries, inner, rfl, hlookup, hinner⟩ := get?_eq_some_directory hsub
      rw [List.cons_append, put_of_lookup hlookup, get?_directory, lookup_setEntry_self,
        Option.bind_some, ih hinner]

/-- A leaf that is put elsewhere changes nothing below a place. -/
theorem get?_put_of_not_prefix {t sub new : Tree α} {place other : List String}
    (hplace : t.node? place ≠ some .directory) (hsub : t.get? other = some sub)
    (hother : ¬other <+: place) : (t.put new place).get? other = some sub := by
  induction other generalizing t place with
  | nil => exact absurd List.nil_prefix hother
  | cons name rest ih =>
      obtain ⟨entries, inner, rfl, hlookup, hinner⟩ := get?_eq_some_directory hsub
      cases place with
      | nil => exact absurd rfl hplace
      | cons first more =>
          by_cases hfirst : name = first
          · subst hfirst
            rw [node?_of_lookup hlookup] at hplace
            rw [put_of_lookup hlookup, get?_directory, lookup_setEntry_self, Option.bind_some]
            exact ih hplace hinner fun hprefix => hother (List.prefix_cons_inj name |>.mpr hprefix)
          · cases hlookup' : entries.lookup first with
            | some entry =>
                rw [put_of_lookup hlookup', get?_directory, lookup_setEntry_of_ne hfirst, hlookup,
                  Option.bind_some, hinner]
            | none =>
                by_cases hmore : more = []
                · subst hmore
                  rw [put, get?_directory, lookup_setEntry_of_ne hfirst, hlookup, Option.bind_some,
                    hinner]
                · rw [put_of_lookup_eq_none hlookup' new hmore, get?_directory, hlookup,
                    Option.bind_some, hinner]

/-- A property of all trees that files have, and directories if all their entries have it. -/
@[elab_as_elim]
theorem induction_on {P : Tree α → Prop} (file : ∀ content, P (.file content))
    (directory : ∀ entries, (∀ entry ∈ entries, P entry.2) → P (.directory entries)) :
    ∀ t, P t
  | .file content => file content
  | .directory entries =>
      directory entries fun entry _ => induction_on file directory entry.2
termination_by t => sizeOf t
decreasing_by
  rename_i hentry
  have hless := List.sizeOf_lt_of_mem hentry
  cases entry
  simp only [Prod.mk.sizeOf_spec, Tree.directory.sizeOf_spec] at hless ⊢
  omega

/-! Files that are put where files are. -/

/-- A file put in the place of another takes no file away. -/
theorem get?_put_file {t : Tree α} {place other : List String} {old content : α}
    (hplace : t.get? place = some (.file old)) (hother : t.get? other = some (.file content))
    (new : α) : ∃ left, (t.put (.file new) place).get? other = some (.file left) := by
  by_cases heq : other = place
  · subst heq
    have hput := get?_put_append hplace (.file new) []
    rw [List.append_nil] at hput
    exact ⟨new, hput⟩
  · have hfree : t.node? place ≠ some .directory := by simp [node?, hplace, node]
    have hnode := node?_put_of_ne (rfl : (Tree.file new).entries = []) hfree heq
    rw [node?_eq_some_file_iff.mpr hother] at hnode
    exact ⟨content, node?_eq_some_file_iff.mp hnode⟩

/-- Each place holds the file that is put there last. -/
def HoldsLast (t : Tree α) : List (List String × α) → Prop
  | [] => True
  | (place, content) :: later =>
      (t.get? place = some (.file content) ∨ place ∈ later.map Prod.fst) ∧ t.HoldsLast later

/-- If the last of the files written to each place is there, every place holds a file. -/
theorem HoldsLast.exists_file {t : Tree α} {files : List (List String × α)}
    (hlast : t.HoldsLast files) :
    ∀ place ∈ files.map Prod.fst, ∃ content, t.get? place = some (.file content) := by
  induction files with
  | nil => simp
  | cons file later ih =>
      obtain ⟨hfile, hlater⟩ := hlast
      rw [List.map_cons, List.forall_mem_cons]
      refine ⟨?_, ih hlater⟩
      rcases hfile with hfile | hagain
      · exact ⟨file.2, hfile⟩
      · exact ih hlater file.1 hagain

/-- A file that is replaced later does not matter. -/
theorem foldl_put_of_mem {t : Tree α} {files : List (List String × α)} {place : List String}
    (hfiles : ∀ place ∈ files.map Prod.fst, ∃ content, t.get? place = some (.file content))
    (hplace : place ∈ files.map Prod.fst) (content : α) :
    files.foldl (fun t file => t.put (.file file.2) file.1) (t.put (.file content) place) =
      files.foldl (fun t file => t.put (.file file.2) file.1) t := by
  induction files generalizing t with
  | nil => contradiction
  | cons file later ih =>
      obtain ⟨other, new⟩ := file
      obtain ⟨old, hold⟩ := hfiles place hplace
      obtain ⟨hother, hlater⟩ := List.forall_mem_cons.mp hfiles
      obtain ⟨replaced, hreplaced⟩ := hother
      rw [List.foldl_cons, List.foldl_cons]
      by_cases heq : place = other
      · subst heq
        rw [put_put_self]
      · rw [put_comm hold hreplaced heq]
        rcases List.mem_cons.mp hplace with hfirst | hplace
        · exact absurd hfirst heq
        · apply ih _ hplace
          intro place hmem
          obtain ⟨content, hcontent⟩ := hlater place hmem
          exact get?_put_file hreplaced hcontent new

/-- Files are put again where they are. -/
theorem HoldsLast.foldl_put {t : Tree α} {files : List (List String × α)}
    (hlast : t.HoldsLast files) :
    files.foldl (fun t file => t.put (.file file.2) file.1) t = t := by
  induction files with
  | nil => rfl
  | cons file later ih =>
      obtain ⟨hfile, hlater⟩ := hlast
      rw [List.foldl_cons]
      rcases hfile with hfile | hagain
      · rw [put_get? hfile, ih hlater]
      · rw [foldl_put_of_mem hlater.exists_file hagain, ih hlater]

end Tree

end ClassChart
