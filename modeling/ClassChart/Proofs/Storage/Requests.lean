import ClassChart.Proofs.Storage.Procedure

/-!
What a procedure asks for.  If all its requests have a property, whatever the answers to the
earlier ones are, that says which files it can change and which answers its result depends on.
-/
namespace ClassChart.Procedure

variable {α β : Type}

/-- A request of a procedure. -/
inductive Request where
  | report (event : Event)
  | look (path : String)
  | list (path : String)
  | read (path : String)
  | makeDirectory (path : String)
  | write (path : String) (content : ByteArray)

/-- All requests that a procedure can make satisfy `P`. -/
inductive Asks (P : Request → Prop) : Procedure α → Prop
  | done (value : α) : Asks P (.done value)
  | fail (fault : Fault) : Asks P (.fail fault)
  | report {event : Event} {next : Procedure α} (hevent : P (.report event))
      (hnext : Asks P next) : Asks P (.report event next)
  | look {path : String} {next : Option Bool → Procedure α} (hpath : P (.look path))
      (hnext : ∀ answer, Asks P (next answer)) : Asks P (.look path next)
  | list {path : String} {next : Option (Tree Unit) → Procedure α} (hpath : P (.list path))
      (hnext : ∀ answer, Asks P (next answer)) : Asks P (.list path next)
  | read {path : String} {next : Except OsError ByteArray → Procedure α} (hpath : P (.read path))
      (hnext : ∀ answer, Asks P (next answer)) : Asks P (.read path next)
  | makeDirectory {path : String} {next : Except OsError Unit → Procedure α}
      (hpath : P (.makeDirectory path)) (hnext : ∀ answer, Asks P (next answer)) :
      Asks P (.makeDirectory path next)
  | write {path : String} {content : ByteArray} {next : Except OsError Unit → Procedure α}
      (hpath : P (.write path content)) (hnext : ∀ answer, Asks P (next answer)) :
      Asks P (.write path content next)

variable {P : Request → Prop} {p : Procedure α}

theorem Asks.bind {f : α → Procedure β} (hp : p.Asks P) (hf : ∀ value, (f value).Asks P) :
    (p >>= f).Asks P := by
  change (p.andThen f).Asks P
  induction hp with
  | done value => exact hf value
  | fail fault => exact .fail fault
  | report hevent _ ih => exact .report hevent ih
  | look hpath _ ih => exact .look hpath ih
  | list hpath _ ih => exact .list hpath ih
  | read hpath _ ih => exact .read hpath ih
  | makeDirectory hpath _ ih => exact .makeDirectory hpath ih
  | write hpath _ ih => exact .write hpath ih

theorem asks_mapM {f : α → Procedure β} {as : List α} (hf : ∀ a ∈ as, (f a).Asks P) :
    (as.mapM f).Asks P := by
  induction as with
  | nil => exact .done []
  | cons a rest ih =>
      obtain ⟨hfirst, hrest⟩ := List.forall_mem_cons.mp hf
      rw [List.mapM_cons]
      exact hfirst.bind fun b => (ih hrest).bind fun bs => .done (b :: bs)

theorem asks_emit {event : Event} (hevent : P (.report event)) : (emit event).Asks P :=
  .report hevent (.done ())

theorem asks_ofAttempt (hP : ∀ event, P (.report event)) (x : Attempt α) :
    (ofAttempt x).Asks P := by
  unfold ofAttempt
  induction x.run.events with
  | nil =>
      cases x.run.value with
      | ok value => exact .done value
      | error fault => exact .fail fault
  | cons event rest ih => exact .report (hP event) ih

/-- Making a directory asks for that directory, and may look whether it is there. -/
theorem asks_make {path : Path} (hmake : P (.makeDirectory path.text))
    (hlook : P (.look path.text)) {otherwise : OsError → Procedure (Except OsError Unit)}
    (hotherwise : ∀ e, (otherwise e).Asks P) : (makeDirectories.make path otherwise).Asks P := by
  refine .makeDirectory hmake fun answer => ?_
  cases answer with
  | ok => exact .done _
  | error e =>
      by_cases hmissing : e.errno = .noEntry
      · simpa only [hmissing, if_true] using hotherwise e
      · simp only [hmissing, if_false]
        refine .look hlook fun there => ?_
        by_cases hthere : there = some true
        · simp only [hthere, if_true]
          exact .done _
        · simpa only [hthere, if_false] using hotherwise e

/-- Making a directory asks for it and for those above it. -/
theorem asks_makeDirectories {root : String} {names : List String}
    (hmake : ∀ q : Path, q.IsAbove ⟨root, names.reverse⟩ → P (.makeDirectory q.text))
    (hlook : ∀ path, P (.look path)) : (makeDirectories root names).Asks P := by
  induction names with
  | nil => exact asks_make (hmake ⟨root, []⟩ (.refl _)) (hlook _) fun _ => .done _
  | cons name above ih =>
      have habove : (makeDirectories root above).Asks P := by
        apply ih
        intro q hq
        apply hmake
        refine hq.trans ⟨rfl, ?_⟩
        rw [List.reverse_cons]
        exact List.prefix_append _ _
      have hself := hmake ⟨root, (name :: above).reverse⟩ (.refl _)
      refine asks_make hself (hlook _) fun e => ?_
      by_cases hmissing : e.errno = .noEntry
      · simp only [hmissing, if_true]
        refine habove.bind fun answer => ?_
        cases answer with
        | error e => exact .done _
        | ok => exact asks_make hself (hlook _) fun _ => .done _
      · simp only [hmissing, if_false]
        exact .done _

/-! Runs of procedures that succeed. -/

/-- After a first part that succeeds, the second runs on the files that it leaves. -/
theorem run_bind_of_ok {f : α → Procedure β} {fs : FileSystem} {value : α}
    (hp : (p.run fs).result = .ok value) :
    (p >>= f).run fs =
      { (f value).run (p.run fs).files with
        events := (p.run fs).events ++ ((f value).run (p.run fs).files).events } := by
  rw [run_bind, hp]

/-- A chain that succeeds has two parts that do. -/
theorem exists_of_result_bind {f : α → Procedure β} {fs : FileSystem} {value : β}
    (hrun : ((p >>= f).run fs).result = .ok value) :
    ∃ first, (p.run fs).result = .ok first ∧
      ((f first).run (p.run fs).files).result = .ok value := by
  rw [run_bind] at hrun
  cases hp : (p.run fs).result with
  | error fault =>
      rw [hp] at hrun
      contradiction
  | ok first =>
      rw [hp] at hrun
      exact ⟨first, rfl, hrun⟩

/-- Items are handled one after another, each on the files that the ones before it leave. -/
theorem run_mapM_cons {f : α → Procedure β} {a : α} {as : List α} {b : β} {bs : List β}
    {fs : FileSystem} (hfirst : ((f a).run fs).result = .ok b)
    (hrest : ((as.mapM f).run ((f a).run fs).files).result = .ok bs) :
    ((a :: as).mapM f).run fs =
      ⟨.ok (b :: bs), ((f a).run fs).events ++ ((as.mapM f).run ((f a).run fs).files).events,
        ((as.mapM f).run ((f a).run fs).files).files⟩ := by
  rw [List.mapM_cons, run_bind_of_ok hfirst, run_bind_of_ok hrest]
  change (⟨.ok (b :: bs), _ ++ (_ ++ []), _⟩ : Outcome (List β)) = _
  rw [List.append_nil]
  rfl

theorem files_run_mapM_cons {f : α → Procedure β} {a : α} {as : List α} {b : β} {bs : List β}
    {fs : FileSystem} (hfirst : ((f a).run fs).result = .ok b)
    (hrest : ((as.mapM f).run ((f a).run fs).files).result = .ok bs) :
    (((a :: as).mapM f).run fs).files = ((as.mapM f).run ((f a).run fs).files).files := by
  rw [run_mapM_cons hfirst hrest]

/-- If all items succeed, the first one does and so do the others after it. -/
theorem exists_of_result_mapM_cons {f : α → Procedure β} {a : α} {as : List α} {bs : List β}
    {fs : FileSystem} (hrun : (((a :: as).mapM f).run fs).result = .ok bs) :
    ∃ first rest, ((f a).run fs).result = .ok first ∧
      ((as.mapM f).run ((f a).run fs).files).result = .ok rest := by
  rw [List.mapM_cons] at hrun
  obtain ⟨first, hfirst, hrun⟩ := exists_of_result_bind hrun
  obtain ⟨rest, hrest, -⟩ := exists_of_result_bind hrun
  exact ⟨first, rest, hfirst, hrest⟩

theorem run_reports (events : List Event) (fs : FileSystem) :
    (events.foldr .report p).run fs =
      { p.run fs with events := events ++ (p.run fs).events } := by
  induction events with
  | nil => rfl
  | cons event rest ih => rw [List.foldr_cons, run, ih, List.cons_append]

theorem run_emit_pure (event : Event) (value : α) (fs : FileSystem) :
    (do
      emit event
      return value).run fs = ⟨.ok value, [event], fs⟩ := rfl

theorem run_ofAttempt (x : Attempt α) (fs : FileSystem) :
    (ofAttempt x).run fs = ⟨x.result, x.run.events, fs⟩ := by
  rw [ofAttempt, run_reports, Attempt.result]
  cases x.run.value with
  | ok value => simp [run]
  | error fault => simp [run]

theorem run_ofLogged (x : Logged α) (fs : FileSystem) :
    (ofLogged x).run fs = ⟨.ok x.value, x.events, fs⟩ := by
  rw [ofLogged, run_reports]
  simp [run]

/-! Runs of procedures of which the requests are known. -/

namespace Asks

theorem events_run (hp : p.Asks P) (hP : ∀ event, ¬P (.report event)) (fs : FileSystem) :
    (p.run fs).events = [] := by
  induction hp generalizing fs with
  | done value => rfl
  | fail fault => rfl
  | report hevent => exact absurd hevent (hP _)
  | look _ _ ih | list _ _ ih | read _ _ ih => exact ih _ fs
  | @makeDirectory path _ _ _ ih =>
      rw [run]
      cases fs.makeDirectory path <;> exact ih _ _
  | @write path content _ _ _ ih =>
      rw [run]
      cases fs.write path content <;> exact ih _ _

/-- What every change that is asked for respects, a run respects. -/
theorem files_run {R : FileSystem → FileSystem → Prop} (hrefl : ∀ fs, R fs fs)
    (htrans : ∀ {fs mid fs'}, R fs mid → R mid fs' → R fs fs')
    (hmade : ∀ {path fs fs'}, P (.makeDirectory path) → fs.makeDirectory path = .ok fs' → R fs fs')
    (hwritten : ∀ {path content fs fs'}, P (.write path content) →
      fs.write path content = .ok fs' → R fs fs')
    (hp : p.Asks P) (fs : FileSystem) : R fs (p.run fs).files := by
  induction hp generalizing fs with
  | done value => exact hrefl fs
  | fail fault => exact hrefl fs
  | report _ _ ih => exact ih fs
  | look _ _ ih | list _ _ ih | read _ _ ih => exact ih _ fs
  | @makeDirectory path _ hpath _ ih =>
      rw [run]
      cases hmake : fs.makeDirectory path with
      | ok made => exact htrans (hmade hpath hmake) (ih _ made)
      | error e => exact ih _ fs
  | @write path content _ hpath _ ih =>
      rw [run]
      cases hwrite : fs.write path content with
      | ok written => exact htrans (hwritten hpath hwrite) (ih _ written)
      | error e => exact ih _ fs

end Asks

/-- A request that changes nothing and has one answer in two file systems. -/
def SameAnswer (fs fs' : FileSystem) : Request → Prop
  | .report _ => True
  | .look path => (fs'.entry? path).map Tree.isDirectory = (fs.entry? path).map Tree.isDirectory
  | .list path => ((fs'.entry? path).filter Tree.isDirectory).map namesOf =
      ((fs.entry? path).filter Tree.isDirectory).map namesOf
  | .read path => fs'.read path = fs.read path
  | .makeDirectory _ => False
  | .write _ _ => False

/-- A procedure that only asks for answers goes the same way if they are the same. -/
theorem Asks.run_eq {fs fs' : FileSystem} (hp : p.Asks (SameAnswer fs fs')) :
    p.run fs' = { p.run fs with files := fs' } := by
  induction hp with
  | done value => rfl
  | fail fault => rfl
  | report _ _ ih => rw [run, ih, run]
  | look hanswer _ ih | list hanswer _ ih | read hanswer _ ih => rw [run, hanswer, ih, run]
  | makeDirectory hanswer => exact absurd hanswer id
  | write hanswer => exact absurd hanswer id

end ClassChart.Procedure
