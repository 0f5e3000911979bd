import ClassChart.Proofs.Source.Walk

/-!
The order of a walk over the sources below a directory.  A walk passes exactly the sources that
are not in a skipped directory, each of them once: first those of a directory by name and then
those of its subdirectories by name.  How the entries of a directory are listed does not matter.
-/
namespace ClassChart

/-- One place comes before another in a walk: the files of a directory come before what is in its
subdirectories, and both files and subdirectories come in the order of their names. -/
inductive PassedBefore : List String → List String → Prop
  | files {a b : String} (hlt : a < b) : PassedBefore [a] [b]
  | fileFirst (a b c : String) (below : List String) : PassedBefore [a] (b :: c :: below)
  | directories {a b : String} (hlt : a < b) (c d : String) (below below' : List String) :
      PassedBefore (a :: c :: below) (b :: d :: below')
  | inside (name : String) {place place' : List String} (h : PassedBefore place place') :
      PassedBefore (name :: place) (name :: place')

theorem PassedBefore.ne {place place' : List String} (h : PassedBefore place place') :
    place ≠ place' := by
  induction h with
  | files hlt => simpa using hlt.ne
  | fileFirst => simp
  | directories hlt => simp [hlt.ne]
  | inside name _ ih => simpa using ih

namespace Tree

variable {α : Type}

/-- A source at a place that is not in a skipped directory. -/
structure HasSource (t : Tree α) (place : List String) : Prop where
  file : ∃ content, t.get? place = some (.file content)
  name : ∃ name ∈ place.getLast?, isSourceFile name = true
  directories : ∀ directory ∈ place.dropLast, isSkippedDirectory directory = false

theorem HasSource.ne_nil {t : Tree α} {place : List String} (h : t.HasSource place) :
    place ≠ [] := by
  rintro rfl
  obtain ⟨name, hname, -⟩ := h.name
  contradiction

theorem not_hasSource_file (content : α) (place : List String) :
    ¬(Tree.file content).HasSource place := by
  intro h
  obtain ⟨found, hfound⟩ := h.file
  rw [get?_eq_none_of_entries rfl h.ne_nil] at hfound
  contradiction

/-- A source of a directory is an entry of it, or a source of a subdirectory that is searched. -/
theorem hasSource_directory_iff {entries : List (String × Tree α)}
    (hnodup : (entries.map Prod.fst).Nodup) {place : List String} :
    (Tree.directory entries).HasSource place ↔
      (∃ name, place = [name] ∧ name ∈ sourceNames entries) ∨
        ∃ entry ∈ entries.filter isSearched, ∃ below,
          place = entry.1 :: below ∧ entry.2.HasSource below := by
  constructor
  · rintro ⟨⟨content, hfile⟩, ⟨name, hlast, hname⟩, hdirectories⟩
    cases place with
    | nil => contradiction
    | cons first below =>
        rw [get?_directory] at hfile
        obtain ⟨entry, hlookup, hfile⟩ := Option.bind_eq_some_iff.mp hfile
        have hentry : (first, entry) ∈ entries := by
          obtain ⟨before, after, rfl, -⟩ := List.lookup_eq_some_iff.mp hlookup
          simp
        cases below with
        | nil =>
            left
            cases Option.some.inj hfile
            cases hlast
            exact ⟨first, rfl, mem_sourceNames_iff.mpr ⟨hname, content, hentry⟩⟩
        | cons second rest =>
            right
            rw [List.dropLast_cons_cons, List.forall_mem_cons] at hdirectories
            obtain ⟨inner, _, rfl, -⟩ := get?_eq_some_directory hfile
            refine ⟨(first, .directory inner), ?_, second :: rest, rfl, ⟨content, hfile⟩,
              ⟨name, hlast, hname⟩, hdirectories.2⟩
            exact List.mem_filter.mpr ⟨hentry, by simp [isSearched, isDirectory, hdirectories.1]⟩
  · rintro (⟨name, rfl, hname⟩ | ⟨⟨name, entry⟩, hentry, below, rfl, hbelow⟩)
    · obtain ⟨hkind, content, hcontent⟩ := mem_sourceNames_iff.mp hname
      refine ⟨⟨content, ?_⟩, ⟨name, rfl, hkind⟩, by simp⟩
      rw [get?_directory, lookup_eq_some_of_mem hnodup hcontent]
      rfl
    · obtain ⟨hmem, hsearched⟩ := List.mem_filter.mp hentry
      simp only [isSearched, Bool.and_eq_true, Bool.not_eq_true'] at hsearched
      obtain ⟨second, rest, rfl⟩ := List.exists_cons_of_ne_nil hbelow.ne_nil
      refine ⟨?_, hbelow.name, ?_⟩
      · rw [get?_directory, lookup_eq_some_of_mem hnodup hmem]
        exact hbelow.file
      · rw [List.dropLast_cons_cons, List.forall_mem_cons]
        exact ⟨hsearched.2, hbelow.directories⟩

/-- The places of the sources of a tree in the order in which a walk passes them. -/
structure Visits (t : Tree α) (places : List (List String)) : Prop where
  sources (path : String) : t.sources path = places.map (·.foldl entryPath path)
  ordered : places.Pairwise PassedBefore
  mem_iff (place : List String) : place ∈ places ↔ t.HasSource place

theorem visits_file (content : α) : (Tree.file content).Visits [] where
  sources path := by rw [Tree.sources, List.map_nil]
  ordered := .nil
  mem_iff place := by simp [not_hasSource_file]

/-- The subdirectories one after the other. -/
theorem exists_places_below {entries : List (String × Tree α)}
    (hentries : ∀ entry ∈ entries, ∃ places, entry.2.Visits places)
    (hordered : entries.Pairwise fun a b => a.1 < b.1) :
    ∃ places : List (List String),
      (∀ path, (entries.flatMap fun entry => entry.2.sources (entryPath path entry.1)) =
        places.map (·.foldl entryPath path)) ∧
      places.Pairwise PassedBefore ∧
      ∀ place, place ∈ places ↔
        ∃ entry ∈ entries, ∃ below, place = entry.1 :: below ∧ entry.2.HasSource below := by
  induction entries with
  | nil => exact ⟨[], fun _ => rfl, .nil, by simp⟩
  | cons first rest ih =>
      obtain ⟨⟨own, hown⟩, hrest⟩ := List.forall_mem_cons.mp hentries
      obtain ⟨hfirst, hordered⟩ := List.pairwise_cons.mp hordered
      obtain ⟨others, hsources, hpairwise, hmem⟩ := ih hrest hordered
      have hmem' (place : List String) : place ∈ own.map (first.1 :: ·) ↔
          ∃ below, place = first.1 :: below ∧ first.2.HasSource below := by
        simp only [List.mem_map, hown.mem_iff, and_comm, eq_comm]
      refine ⟨own.map (first.1 :: ·) ++ others, fun path => ?_, ?_, fun place => ?_⟩
      · rw [List.flatMap_cons, hown.sources, hsources, List.map_append, List.map_map]
        rfl
      · refine List.pairwise_append.mpr ⟨?_, hpairwise, fun place hplace place' hplace' => ?_⟩
        · exact List.pairwise_map.mpr (hown.ordered.imp fun h => .inside first.1 h)
        · obtain ⟨below, rfl, hbelow⟩ := (hmem' place).mp hplace
          obtain ⟨entry, hentry, below', rfl, hbelow'⟩ := (hmem place').mp hplace'
          -- Below a directory there is always another step, so the names of the two decide.
          obtain ⟨c, p, rfl⟩ := List.exists_cons_of_ne_nil hbelow.ne_nil
          obtain ⟨d, q, rfl⟩ := List.exists_cons_of_ne_nil hbelow'.ne_nil
          exact .directories (hfirst entry hentry) c d p q
      · rw [List.mem_append, hmem', hmem, List.exists_mem_cons_iff]

theorem nodup_filter {entries : List (String × Tree α)} (hnodup : (entries.map Prod.fst).Nodup)
    (keep : String × Tree α → Bool) : ((entries.filter keep).map Prod.fst).Nodup :=
  hnodup.sublist (List.filter_sublist.map Prod.fst)

theorem nodup_sourceNames {entries : List (String × Tree α)}
    (hnodup : (entries.map Prod.fst).Nodup) : ((sourceNames entries).map id).Nodup := by
  rw [List.map_id, sourceNames_eq]
  exact nodup_filter hnodup isSource

theorem sources_directory_eq (path : String) (entries : List (String × Tree α)) :
    (Tree.directory entries).sources path =
      ((sourceNames entries).mergeSort fun a b => (compare a b).isLE).map (entryPath path) ++
        (sortByName (entries.filter isSearched)).flatMap fun entry =>
          entry.2.sources (entryPath path entry.1) := by
  have hsort := List.map_mergeSort (l := entries.filter isSearched)
    (r := fun a b => (compare a.1 b.1).isLE) (s := fun a b => (compare a.1 b.1).isLE)
    (f := fun entry => (entry.1, entry.2.sources (entryPath path entry.1)))
    fun _ _ _ _ => rfl
  rw [sources_directory, sourcesBelow_eq, sortByName, ← hsort, List.flatMap_map]
  rfl

/-- A walk passes the sources that are not in skipped directories, in its order. -/
theorem WellFormed.exists_visits {t : Tree α} (ht : t.WellFormed) :
    ∃ places, t.Visits places := by
  induction ht with
  | file content => exact ⟨[], visits_file content⟩
  | @directory entries hnodup _ _ ih =>
      have hown := pairwise_lt_mergeSort (nodup_sourceNames hnodup)
      have hbelow : (sortByName (entries.filter isSearched)).Pairwise fun a b => a.1 < b.1 :=
        pairwise_lt_mergeSort (nodup_filter hnodup isSearched)
      have hmem {entry : String × Tree α} :
          entry ∈ sortByName (entries.filter isSearched) ↔ entry ∈ entries.filter isSearched :=
        List.mem_mergeSort
      obtain ⟨others, hsources, hpairwise, hothers⟩ := exists_places_below
        (fun entry hentry => ih entry (List.mem_of_mem_filter (hmem.mp hentry))) hbelow
      refine ⟨((sourceNames entries).mergeSort fun a b => (compare a b).isLE).map ([·]) ++ others,
        fun path => ?_, ?_, fun place => ?_⟩
      · rw [sources_directory_eq, hsources, List.map_append, List.map_map]
        rfl
      · refine List.pairwise_append.mpr ⟨?_, hpairwise, fun place hplace place' hplace' => ?_⟩
        · exact List.pairwise_map.mpr (hown.imp fun h => .files h)
        · obtain ⟨name, -, rfl⟩ := List.mem_map.mp hplace
          obtain ⟨entry, -, below, rfl, hsource⟩ := (hothers place').mp hplace'
          obtain ⟨c, rest, rfl⟩ := List.exists_cons_of_ne_nil hsource.ne_nil
          exact .fileFirst name entry.1 c rest
      · rw [hasSource_directory_iff hnodup, List.mem_append, hothers]
        simp only [hmem, List.mem_map, List.mem_mergeSort, and_comm, eq_comm]

/-- A walk passes files that are there, and goes down to them by their names. -/
theorem WellFormed.exists_hasSource {t : Tree α} (ht : t.WellFormed) {path source : String}
    (hsource : source ∈ t.sources path) :
    ∃ place, t.HasSource place ∧ source = place.foldl entryPath path := by
  obtain ⟨places, hvisits⟩ := ht.exists_visits
  rw [hvisits.sources] at hsource
  obtain ⟨place, hplace, rfl⟩ := List.mem_map.mp hsource
  exact ⟨place, (hvisits.mem_iff place).mp hplace, rfl⟩

/-- Different places have different paths. -/
theorem Visits.nodup_sources {t : Tree α} (ht : t.WellFormed) {places : List (List String)}
    (hvisits : t.Visits places) (path : String) :
    (places.map (·.foldl entryPath path)).Nodup := by
  have hnames {place : List String} (hplace : place ∈ places) :
      Path.partsOf (place.foldl entryPath path) = Path.partsOf path ++ place := by
    obtain ⟨content, hfile⟩ := ((hvisits.mem_iff place).mp hplace).file
    exact partsOf_foldl_entryPath path fun name hname => ((ht.of_get? hfile).2 name hname).1
  apply List.pairwise_map.mpr
  apply hvisits.ordered.imp_of_mem
  intro place place' hplace hplace' hbefore hsame
  have hparts := congrArg Path.partsOf hsame
  rw [hnames hplace, hnames hplace', List.append_cancel_left_eq] at hparts
  exact hbefore.ne hparts

mutual

/-- The same tree, with the entries of each directory listed in any order. -/
inductive Relisted : Tree α → Tree α → Prop
  | file (content : α) : Relisted (.file content) (.file content)
  | directory {entries entries' : List (String × Tree α)} (h : RelistedEntries entries entries') :
      Relisted (.directory entries) (.directory entries')

/-- The same entries in any order, each of them relisted. -/
inductive RelistedEntries : List (String × Tree α) → List (String × Tree α) → Prop
  | nil : RelistedEntries [] []
  | cons (name : String) (before : List (String × Tree α)) {entry entry' : Tree α}
      {rest after : List (String × Tree α)} (hentry : Relisted entry entry')
      (hrest : RelistedEntries rest (before ++ after)) :
      RelistedEntries ((name, entry) :: rest) (before ++ (name, entry') :: after)

end

theorem sourceNames_perm {entries entries' : List (String × Tree α)}
    (h : entries.Perm entries') : (sourceNames entries).Perm (sourceNames entries') := by
  rw [sourceNames_eq, sourceNames_eq]
  exact (h.filter isSource).map Prod.fst

/-- Entries in another order have the same sources below, in another order. -/
theorem sourcesBelow_perm {entries entries' : List (String × Tree α)}
    (h : entries.Perm entries') (path : String) :
    (sourcesBelow path entries).Perm (sourcesBelow path entries') := by
  rw [sourcesBelow_eq, sourcesBelow_eq]
  exact (h.filter isSearched).map _

/-- Relisted entries give the same names and subdirectories, but for their order. -/
theorem RelistedEntries.perm_sources {entries entries' : List (String × Tree α)}
    (h : RelistedEntries entries entries')
    (hsame : ∀ entry ∈ entries, ∀ entry', Relisted entry.2 entry' → SameSources entry.2 entry') :
    (sourceNames entries').Perm (sourceNames entries) ∧
      ∀ path, (sourcesBelow path entries').Perm (sourcesBelow path entries) := by
  induction entries generalizing entries' with
  | nil =>
      cases h
      exact ⟨.refl _, fun _ => .refl _⟩
  | cons first rest ih =>
      cases h with
      | @cons name before entry entry' _ after hentry hrest =>
          obtain ⟨hfirst, hsame⟩ := List.forall_mem_cons.mp hsame
          have hone : entry.SameSources entry' := hfirst entry' hentry
          obtain ⟨hnames, hbelow⟩ := ih hrest hsame
          constructor
          · have hsplit (others : List (String × Tree α)) : sourceNames ((name, entry) :: others) =
                sourceNames [(name, entry)] ++ sourceNames others :=
              sourceNames_append [(name, entry)] others
            apply (sourceNames_perm List.perm_middle).trans
            rw [hone.sourceNames_cons, hsplit (before ++ after), hsplit rest]
            exact hnames.append_left _
          · intro path
            have hsplit (others : List (String × Tree α)) :
                sourcesBelow path ((name, entry) :: others) =
                  sourcesBelow path [(name, entry)] ++ sourcesBelow path others :=
              sourcesBelow_append path [(name, entry)] others
            apply (sourcesBelow_perm List.perm_middle path).trans
            rw [hone.sourcesBelow_cons, hsplit (before ++ after), hsplit rest]
            exact (hbelow path).append_left _

/-- The order in which directories list their entries does not matter. -/
theorem Relisted.sameSources {t t' : Tree α} (h : t.Relisted t') (ht : t.WellFormed) :
    SameSources t t' := by
  induction ht generalizing t' with
  | file content =>
      cases h
      exact ⟨rfl, fun _ => rfl⟩
  | @directory entries hnodup _ _ ih =>
      cases h with
      | @directory _ entries' h =>
          obtain ⟨hnames, hbelow⟩ := h.perm_sources fun entry hentry entry' => ih entry hentry
          refine ⟨rfl, fun path => ?_⟩
          have hown : ((sourceNames entries').mergeSort fun a b => (compare a b).isLE) =
              (sourceNames entries).mergeSort fun a b => (compare a b).isLE :=
            mergeSort_eq_of_perm (nodup_sourceNames hnodup) hnames
          have hothers : sortByName (sourcesBelow path entries') =
              sortByName (sourcesBelow path entries) := by
            refine mergeSort_eq_of_perm ?_ (hbelow path)
            rw [sourcesBelow_eq, List.map_map]
            exact nodup_filter hnodup isSearched
          rw [sources_directory, sources_directory, hown, hothers]

end Tree

namespace SourceFile

/-- The search leaves the files as they are and reports nothing. -/
theorem run_pathsBelow (root : String) (fs : FileSystem) :
    (pathsBelow root).run fs =
      ⟨.ok (((fs.entry? root).filter Tree.isDirectory).elim [] (Tree.sources root)), [], fs⟩ := by
  rw [pathsBelow, Procedure.run]
  cases (fs.entry? root).filter Tree.isDirectory with
  | none => rfl
  | some tree =>
      change (⟨.ok ((Procedure.namesOf tree).sources root), [], fs⟩ : Procedure.Outcome _) = _
      rw [Procedure.namesOf, Tree.sources_map]
      rfl

/-- The paths below a directory are those of the sources that are not in a skipped directory,
each of them once.  The files of a directory come before those of its subdirectories, both in
the order of their names, and the listing of the directories does not matter. -/
theorem result_pathsBelow_ordered {fs : FileSystem} {root : String} {t : Tree ByteArray}
    (hroot : fs.entry? root = some t) (ht : t.WellFormed) :
    ∃ places : List (List String),
      ((pathsBelow root).run fs).result = .ok (places.map (·.foldl entryPath root)) ∧
      (places.map (·.foldl entryPath root)).Nodup ∧
      places.Pairwise PassedBefore ∧
      (∀ place, place ∈ places ↔ t.HasSource place) ∧
      ∀ (fs' : FileSystem) (t' : Tree ByteArray), fs'.entry? root = some t' → t.Relisted t' →
        ((pathsBelow root).run fs').result = ((pathsBelow root).run fs).result := by
  have hresult {fs : FileSystem} {t : Tree ByteArray} (hroot : fs.entry? root = some t) :
      ((pathsBelow root).run fs).result = .ok (t.sources root) := by
    rw [run_pathsBelow, hroot]
    cases t with
    | file content =>
        rw [Tree.sources]
        rfl
    | directory entries => rfl
  obtain ⟨places, hvisits⟩ := ht.exists_visits
  refine ⟨places, ?_, hvisits.nodup_sources ht root, hvisits.ordered, hvisits.mem_iff, ?_⟩
  · rw [hresult hroot, hvisits.sources]
  · intro fs' t' hroot' hlisted
    rw [hresult hroot', hresult hroot, (hlisted.sameSources ht).sources]

/-- Two listings of a directory with a skipped subdirectory and a file whose name comes behind
that of a subdirectory. -/
theorem result_pathsBelow_two_listings :
    let a : String × Tree ByteArray := ("Z", .directory [("A.java", .file .empty)])
    let b : String × Tree ByteArray := ("build", .directory [("B.java", .file .empty)])
    let c : String × Tree ByteArray := ("z.JAVA", .file .empty)
    let fs : FileSystem := { root := .directory [("src", .directory [a, b, c])] }
    let fs' : FileSystem := { root := .directory [("src", .directory [c, b, a])] }
    (fs.entry? "src" = some (.directory [a, b, c]) ∧ (Tree.directory [a, b, c]).WellFormed ∧
        fs'.entry? "src" = some (.directory [c, b, a]) ∧
        (Tree.directory [a, b, c]).Relisted (.directory [c, b, a])) ∧
      (∃ places : List (List String),
        places.map (·.foldl entryPath "src") = ["src/z.JAVA", "src/Z/A.java"] ∧
        places.Pairwise PassedBefore ∧ ["Z", "A.java"] ∈ places ∧ ["build", "B.java"] ∉ places) ∧
      ((pathsBelow "src").run fs').result = .ok ["src/z.JAVA", "src/Z/A.java"] := by
  intro a b c fs fs'
  have hroot : fs.entry? "src" = some (.directory [a, b, c]) := rfl
  have hroot' : fs'.entry? "src" = some (.directory [c, b, a]) := rfl
  have hwell : (Tree.directory [a, b, c]).WellFormed := by
    have hbelow (name : String) (hname : Path.IsName name ∧ name ≠ "..") :
        (Tree.directory [(name, .file ByteArray.empty)]).WellFormed :=
      .directory (List.nodup_singleton name) (List.forall_mem_singleton.mpr hname)
        (List.forall_mem_singleton.mpr (.file _))
    refine .directory (by decide) (by decide +kernel) ?_
    simp only [List.forall_mem_cons, List.not_mem_nil, false_imp_iff, implies_true, and_true]
    exact ⟨hbelow "A.java" (by decide +kernel), hbelow "B.java" (by decide +kernel), .file _⟩
  have hlisted : (Tree.directory [a, b, c]).Relisted (.directory [c, b, a]) := by
    have hbelow (name : String) : (Tree.directory [(name, .file ByteArray.empty)]).Relisted
        (.directory [(name, .file ByteArray.empty)]) :=
      .directory (.cons name [] (.file _) .nil)
    refine .directory (.cons "Z" [c, b] (hbelow _) ?_)
    exact .cons "build" [c] (hbelow _) (.cons "z.JAVA" [] (.file _) .nil)
  have hresult : ((pathsBelow "src").run fs).result = .ok ["src/z.JAVA", "src/Z/A.java"] := by
    have hsource : isSourceFile "z.JAVA" = true ∧ isSourceFile "A.java" = true ∧
        isSkippedDirectory "Z" = false ∧ isSkippedDirectory "build" = true := by decide +kernel
    have hpath : entryPath "src" "z.JAVA" = "src/z.JAVA" ∧
        entryPath (entryPath "src" "Z") "A.java" = "src/Z/A.java" := by decide +kernel
    rw [run_pathsBelow]
    change Except.ok (Tree.sources "src" (.directory [a, b, c])) = _
    simp [a, b, c, Tree.sources, Tree.sourceNames, Tree.sourcesBelow, Tree.isDirectory, sortByName,
      hsource, hpath]
  obtain ⟨places, hplaces, -, hordered, hmem, hlisting⟩ := result_pathsBelow_ordered hroot hwell
  refine ⟨⟨hroot, hwell, hroot', hlisted⟩, ⟨places, ?_, hordered, ?_, ?_⟩, ?_⟩
  · exact Except.ok.inj (hplaces.symm.trans hresult)
  · exact (hmem _).mpr ⟨⟨_, rfl⟩, ⟨_, rfl, by decide +kernel⟩, by decide +kernel⟩
  · intro hbuild
    have hkept := ((hmem _).mp hbuild).directories "build" (by decide)
    exact absurd hkept (by decide +kernel)
  · exact (hlisting fs' _ hroot' hlisted).trans hresult

end SourceFile

end ClassChart
