import ClassChart.Proofs.Journal
import ClassChart.Proofs.Storage.FileSystem
import ClassChart.Storage.Procedure

/-!
The runs of a procedure where requests to change the file system may fail at any time and
for any reason.  A write that fails may leave anything in the file.  The run that `run`
computes is one of them.
-/
namespace ClassChart.Procedure

variable {α β : Type}

/-- One request and its answer: what is left to do, and the files after it. -/
inductive Step : Procedure α → FileSystem → Procedure α → FileSystem → Prop
  | report (event : Event) (next : Procedure α) (fs : FileSystem) :
      Step (.report event next) fs next fs
  | look (path : String) (next : Option Bool → Procedure α) (fs : FileSystem) :
      Step (.look path next) fs (next ((fs.entry? path).map Tree.isDirectory)) fs
  | list (path : String) (next : Option (Tree Unit) → Procedure α) (fs : FileSystem) :
      Step (.list path next) fs
        (next (((fs.entry? path).filter Tree.isDirectory).map namesOf)) fs
  | read (path : String) (next : Except OsError ByteArray → Procedure α) (fs : FileSystem) :
      Step (.read path next) fs (next (fs.read path)) fs
  | made {path : String} {fs fs' : FileSystem} (next : Except OsError Unit → Procedure α)
      (hmade : fs.makeDirectory path = .ok fs') :
      Step (.makeDirectory path next) fs (next (.ok ())) fs'
  | notMade (path : String) (next : Except OsError Unit → Procedure α) (fs : FileSystem)
      (cause : OsError) : Step (.makeDirectory path next) fs (next (.error cause)) fs
  | written {path : String} {content : ByteArray} {fs fs' : FileSystem}
      (next : Except OsError Unit → Procedure α) (hwritten : fs.write path content = .ok fs') :
      Step (.write path content next) fs (next (.ok ())) fs'
  | notWritten (path : String) (content : ByteArray) (next : Except OsError Unit → Procedure α)
      (fs : FileSystem) (cause : OsError) :
      Step (.write path content next) fs (next (.error cause)) fs
  | partlyWritten {path : String} {left : ByteArray} {fs fs' : FileSystem} (content : ByteArray)
      (next : Except OsError Unit → Procedure α) (hleft : fs.write path left = .ok fs')
      (cause : OsError) : Step (.write path content next) fs (next (.error cause)) fs'

/-- A run of a procedure: the files it starts with, its result, and the files it leaves. -/
inductive Runs : Procedure α → FileSystem → Except Fault α → FileSystem → Prop
  | done (value : α) (fs : FileSystem) : Runs (.done value) fs (.ok value) fs
  | fail (fault : Fault) (fs : FileSystem) : Runs (.fail fault) fs (.error fault) fs
  | step {p next : Procedure α} {fs mid fs' : FileSystem} {result : Except Fault α}
      (hstep : Step p fs next mid) (hnext : Runs next mid result fs') : Runs p fs result fs'

variable {fs fs' : FileSystem}

theorem runs_run (p : Procedure α) (fs : FileSystem) :
    p.Runs fs (p.run fs).result (p.run fs).files := by
  induction p generalizing fs with
  | done value => exact .done value fs
  | fail fault => exact .fail fault fs
  | report event next ih => exact .step (.report event next fs) (ih fs)
  | look path next ih => exact .step (.look path next fs) (ih _ fs)
  | list path next ih => exact .step (.list path next fs) (ih _ fs)
  | read path next ih => exact .step (.read path next fs) (ih _ fs)
  | makeDirectory path next ih =>
      rw [run]
      cases hmade : fs.makeDirectory path with
      | ok made => exact .step (.made next hmade) (ih _ made)
      | error cause => exact .step (.notMade path next fs cause) (ih _ fs)
  | write path content next ih =>
      rw [run]
      cases hwritten : fs.write path content with
      | ok written => exact .step (.written next hwritten) (ih _ written)
      | error cause => exact .step (.notWritten path content next fs cause) (ih _ fs)

/-- As long as the first of two procedures has something to ask, it is the one that asks. -/
theorem Step.of_andThen {p : Procedure α} {f : α → Procedure β} {q : Procedure β}
    (hstep : Step (p.andThen f) fs q fs') :
    (∃ value, p = .done value) ∨ ∃ next, Step p fs next fs' ∧ q = next.andThen f := by
  cases p with
  | done value => exact .inl ⟨value, rfl⟩
  | fail fault => cases hstep
  | report event next =>
      cases hstep
      exact .inr ⟨next, .report event next fs, rfl⟩
  | look path next =>
      cases hstep
      exact .inr ⟨_, .look path next fs, rfl⟩
  | list path next =>
      cases hstep
      exact .inr ⟨_, .list path next fs, rfl⟩
  | read path next =>
      cases hstep
      exact .inr ⟨_, .read path next fs, rfl⟩
  | makeDirectory path next =>
      cases hstep with
      | made _ hmade => exact .inr ⟨_, .made next hmade, rfl⟩
      | notMade _ _ _ cause => exact .inr ⟨_, .notMade path next fs cause, rfl⟩
  | write path content next =>
      cases hstep with
      | written _ hwritten => exact .inr ⟨_, .written next hwritten, rfl⟩
      | notWritten _ _ _ _ cause => exact .inr ⟨_, .notWritten path content next fs cause, rfl⟩
      | partlyWritten _ _ hleft cause =>
          exact .inr ⟨_, .partlyWritten content next hleft cause, rfl⟩

/-- How a run goes on after the first of two procedures has a result. -/
def Continues (f : α → Procedure β) (mid : FileSystem) :
    Except Fault α → Except Fault β → FileSystem → Prop
  | .ok value, result, fs' => (f value).Runs mid result fs'
  | .error fault, result, fs' => result = .error fault ∧ fs' = mid

namespace Runs

/-- A run of one procedure after another is a run of the first and what follows from it. -/
theorem of_bind {p : Procedure α} {f : α → Procedure β} {result : Except Fault β}
    (hrun : (p >>= f).Runs fs result fs') :
    ∃ first mid, p.Runs fs first mid ∧ Continues f mid first result fs' := by
  generalize hq : p >>= f = q at hrun
  change p.andThen f = q at hq
  induction hrun generalizing p with
  | done value fs =>
      cases p with
      | done first =>
          have hsecond : f first = .done value := hq
          have hrest : (f first).Runs fs (.ok value) fs := hsecond ▸ .done value fs
          exact ⟨.ok first, fs, .done first fs, hrest⟩
      | _ => contradiction
  | fail fault fs =>
      cases p with
      | done first =>
          have hsecond : f first = .fail fault := hq
          have hrest : (f first).Runs fs (.error fault) fs := hsecond ▸ .fail fault fs
          exact ⟨.ok first, fs, .done first fs, hrest⟩
      | fail first =>
          cases hq
          exact ⟨.error fault, fs, .fail fault fs, rfl, rfl⟩
      | _ => contradiction
  | step hstep hnext ih =>
      subst hq
      rcases hstep.of_andThen with ⟨value, rfl⟩ | ⟨next, hfirst, rfl⟩
      · have hrest : (f value).Runs _ _ _ := .step hstep hnext
        exact ⟨.ok value, _, .done value _, hrest⟩
      · obtain ⟨first, mid, hrest, hsecond⟩ := ih rfl
        exact ⟨first, mid, .step hfirst hrest, hsecond⟩

theorem of_done {value : α} {result : Except Fault α}
    (hrun : (Procedure.done value).Runs fs result fs') : result = .ok value ∧ fs' = fs := by
  cases hrun with
  | done => exact ⟨rfl, rfl⟩
  | step hstep => cases hstep

theorem of_fail {fault : Fault} {result : Except Fault α}
    (hrun : (Procedure.fail fault).Runs fs result fs') : result = .error fault ∧ fs' = fs := by
  cases hrun with
  | fail => exact ⟨rfl, rfl⟩
  | step hstep => cases hstep

theorem of_report {event : Event} {next : Procedure α} {result : Except Fault α}
    (hrun : (report event next).Runs fs result fs') : next.Runs fs result fs' := by
  cases hrun with
  | step hstep hnext =>
      cases hstep
      exact hnext

theorem of_look {path : String} {next : Option Bool → Procedure α} {result : Except Fault α}
    (hrun : (look path next).Runs fs result fs') :
    ∃ answer, (next answer).Runs fs result fs' := by
  cases hrun with
  | step hstep hnext =>
      cases hstep
      exact ⟨_, hnext⟩

/-- Making a directory succeeds and changes the system, or it fails and does not. -/
theorem of_makeDirectory {path : String} {next : Except OsError Unit → Procedure α}
    {result : Except Fault α} (hrun : (makeDirectory path next).Runs fs result fs') :
    (∃ mid, fs.makeDirectory path = .ok mid ∧ (next (.ok ())).Runs mid result fs') ∨
      ∃ cause, (next (.error cause)).Runs fs result fs' := by
  cases hrun with
  | step hstep hnext =>
      cases hstep with
      | made _ hmade => exact .inl ⟨_, hmade, hnext⟩
      | notMade _ _ _ cause => exact .inr ⟨cause, hnext⟩

/-- Writing a file succeeds, or it fails and may leave some other content behind. -/
theorem of_write {path : String} {content : ByteArray}
    {next : Except OsError Unit → Procedure α} {result : Except Fault α}
    (hrun : (write path content next).Runs fs result fs') :
    (∃ mid, fs.write path content = .ok mid ∧ (next (.ok ())).Runs mid result fs') ∨
      ∃ cause mid, (mid = fs ∨ ∃ left, fs.write path left = .ok mid) ∧
        (next (.error cause)).Runs mid result fs' := by
  cases hrun with
  | step hstep hnext =>
      cases hstep with
      | written _ hwritten => exact .inl ⟨_, hwritten, hnext⟩
      | notWritten _ _ _ _ cause => exact .inr ⟨cause, _, .inl rfl, hnext⟩
      | partlyWritten _ _ hleft cause => exact .inr ⟨cause, _, .inr ⟨_, hleft⟩, hnext⟩

/-- An attempt touches no files. -/
theorem of_ofAttempt {x : Attempt α} {result : Except Fault α}
    (hrun : (ofAttempt x).Runs fs result fs') : result = x.result ∧ fs' = fs := by
  unfold ofAttempt at hrun
  generalize x.run.events = events at hrun
  induction events with
  | nil =>
      unfold Attempt.result
      cases hvalue : x.run.value with
      | ok value =>
          rw [hvalue] at hrun
          exact hrun.of_done
      | error fault =>
          rw [hvalue] at hrun
          exact hrun.of_fail
  | cons event rest ih => exact ih hrun.of_report

end Runs

/-- The result is an answer, good or bad, and nothing but directories is new. -/
structure Answers (makes : Path → Prop) (fs : FileSystem)
    (result : Except Fault (Except OsError Unit)) (fs' : FileSystem) : Prop where
  answer : ∃ answer, result = .ok answer
  files : fs.Extends makes (fun _ => False) fs'

section

variable {makes : Path → Prop} {result : Except Fault (Except OsError Unit)}

theorem answers_of_done {answer : Except OsError Unit}
    (hrun : (Procedure.done answer).Runs fs result fs') : Answers makes fs result fs' := by
  obtain ⟨hresult, rfl⟩ := hrun.of_done
  exact ⟨⟨answer, hresult⟩, .refl makes _ fs'⟩

/-- Making one directory answers or leaves things to what is done otherwise. -/
theorem answers_of_make {p : Path} (hp : p.Normal) (hmakes : makes p)
    {otherwise : OsError → Procedure (Except OsError Unit)}
    (hrun : (makeDirectories.make p otherwise).Runs fs result fs') :
    Answers makes fs result fs' ∨ ∃ cause, (otherwise cause).Runs fs result fs' := by
  rcases hrun.of_makeDirectory with ⟨mid, hmade, hnext⟩ | ⟨cause, hnext⟩
  · obtain ⟨hresult, rfl⟩ := hnext.of_done
    exact .inl ⟨⟨_, hresult⟩, FileSystem.extends_makeDirectory hp hmakes hmade⟩
  · by_cases hmissing : cause.errno = .noEntry
    · simp only [hmissing, if_true] at hnext
      exact .inr ⟨cause, hnext⟩
    · simp only [hmissing, if_false] at hnext
      obtain ⟨answer, hnext⟩ := hnext.of_look
      by_cases hthere : answer = some true
      · simp only [hthere, if_true] at hnext
        exact .inl (answers_of_done hnext)
      · simp only [hthere, if_false] at hnext
        exact .inr ⟨cause, hnext⟩

/-- Making a directory and those above it never fails but by its answer. -/
theorem answers_of_makeDirectories {root : String} {names : List String}
    (hmakes : ∀ p : Path, p.IsAbove ⟨root, names.reverse⟩ → p.Normal ∧ makes p)
    (hrun : (makeDirectories root names).Runs fs result fs') : Answers makes fs result fs' := by
  induction names generalizing fs fs' result with
  | nil =>
      obtain ⟨hnormal, hself⟩ := hmakes ⟨root, []⟩ (.refl _)
      rcases answers_of_make hnormal hself hrun with hanswers | ⟨cause, hrun⟩
      · exact hanswers
      · exact answers_of_done hrun
  | cons name above ih =>
      obtain ⟨hnormal, hself⟩ := hmakes ⟨root, (name :: above).reverse⟩ (.refl _)
      have habove : ∀ p : Path, p.IsAbove ⟨root, above.reverse⟩ → p.Normal ∧ makes p := by
        intro p hp
        apply hmakes
        refine hp.trans ⟨rfl, ?_⟩
        rw [List.reverse_cons]
        exact List.prefix_append _ _
      rcases answers_of_make hnormal hself hrun with hanswers | ⟨cause, hrun⟩
      · exact hanswers
      · by_cases hmissing : cause.errno = .noEntry
        · -- The directories above are made first, and then this one is tried again.
          simp only [hmissing, if_true] at hrun
          obtain ⟨first, mid, hfirst, hrun⟩ := Runs.of_bind hrun
          obtain ⟨⟨answer, rfl⟩, hmid⟩ := ih habove hfirst
          have hlast : Answers makes mid result fs' := by
            cases answer with
            | error cause => exact answers_of_done hrun
            | ok =>
                rcases answers_of_make hnormal hself hrun with hanswers | ⟨cause, hrun⟩
                · exact hanswers
                · exact answers_of_done hrun
          exact ⟨hlast.answer, hmid.trans hlast.files⟩
        · simp only [hmissing, if_false] at hrun
          exact answers_of_done hrun

end

end ClassChart.Procedure
