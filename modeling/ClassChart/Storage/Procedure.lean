import ClassChart.Journal
import ClassChart.Storage.FileSystem

/-!
Procedures: computations that look at files, write them, report events and may
fail.  A procedure is data, each request to the file system followed by what is
done with the answer, so the same procedure runs on a `FileSystem` in the logic
and on the disk in the program.
-/
namespace ClassChart

/-- A computation on files. -/
inductive Procedure (α : Type) where
  | done (value : α)
  | fail (fault : Fault)
  | report (event : Event) (next : Procedure α)
  /-- Ask whether a path is a directory; `none` if there is no entry. -/
  | look (path : String) (next : Option Bool → Procedure α)
  /-- Ask for the tree of names below a path; `none` if it is no directory. -/
  | list (path : String) (next : Option (Tree Unit) → Procedure α)
  | read (path : String) (next : Except OsError ByteArray → Procedure α)
  | makeDirectory (path : String) (next : Except OsError Unit → Procedure α)
  | write (path : String) (content : ByteArray) (next : Except OsError Unit → Procedure α)

namespace Procedure

variable {α β : Type}

def andThen (p : Procedure α) (f : α → Procedure β) : Procedure β :=
  match p with
  | .done value => f value
  | .fail fault => .fail fault
  | .report event next => .report event (next.andThen f)
  | .look path next => .look path fun answer => (next answer).andThen f
  | .list path next => .list path fun answer => (next answer).andThen f
  | .read path next => .read path fun answer => (next answer).andThen f
  | .makeDirectory path next => .makeDirectory path fun answer => (next answer).andThen f
  | .write path content next => .write path content fun answer => (next answer).andThen f

instance : Monad Procedure where
  pure := done
  bind := andThen

/-- Report the events of an attempt and take its result. -/
def ofAttempt (x : Attempt α) : Procedure α :=
  x.run.events.foldr .report <|
    match x.run.value with
    | .ok value => .done value
    | .error fault => .fail fault

/-- Take a result that comes with events. -/
def ofLogged (x : Logged α) : Procedure α :=
  x.events.foldr .report (.done x.value)

/-- Take a result that may be a failure. -/
def ofExcept : Except Fault α → Procedure α
  | .ok value => .done value
  | .error fault => .fail fault

def emit (event : Event) : Procedure Unit :=
  .report event (.done ())

def isDirectory (path : String) : Procedure Bool :=
  .look path fun answer => .done (answer == some true)

def hasEntry (path : String) : Procedure Bool :=
  .look path fun answer => .done answer.isSome

/-- The same procedure with its failure as a value. -/
def outcome : Procedure α → Procedure (Except Fault α)
  | .done value => .done (.ok value)
  | .fail fault => .done (.error fault)
  | .report event next => .report event next.outcome
  | .look path next => .look path fun answer => (next answer).outcome
  | .list path next => .list path fun answer => (next answer).outcome
  | .read path next => .read path fun answer => (next answer).outcome
  | .makeDirectory path next => .makeDirectory path fun answer => (next answer).outcome
  | .write path content next => .write path content fun answer => (next answer).outcome

/-- Make a directory and those above it.  It may exist already. -/
def makeDirectories (root : String) : (partsReversed : List String) →
    Procedure (Except OsError Unit)
  | [] => make ⟨root, []⟩ fun e => .done (.error e)
  | name :: above =>
      let path : Path := ⟨root, (name :: above).reverse⟩
      make path fun e =>
        if e.errno = .noEntry then
          (makeDirectories root above).andThen fun
            | .error e => .done (.error e)
            | .ok () => make path fun e => .done (.error e)
        else .done (.error e)
where
  /-- Make one directory; one that is there already will do. -/
  make (path : Path) (otherwise : OsError → Procedure (Except OsError Unit)) :
      Procedure (Except OsError Unit) :=
    .makeDirectory path.text fun
      | .ok () => .done (.ok ())
      | .error e =>
          if e.errno = .noEntry then otherwise e
          else
            .look path.text fun answer =>
              if answer = some true then .done (.ok ()) else otherwise e

/-- What a procedure leaves behind: its result, its events and the files. -/
structure Outcome (α : Type) where
  result : Except Fault α
  events : List Event
  files : FileSystem

/-- The names of a tree without the contents of its files. -/
def namesOf (t : Tree ByteArray) : Tree Unit :=
  t.map fun _ => ()

def run (p : Procedure α) (fs : FileSystem) : Outcome α :=
  match p with
  | .done value => ⟨.ok value, [], fs⟩
  | .fail fault => ⟨.error fault, [], fs⟩
  | .report event next =>
      let rest := next.run fs
      { rest with events := event :: rest.events }
  | .look path next => (next ((fs.entry? path).map Tree.isDirectory)).run fs
  | .list path next =>
      (next (((fs.entry? path).filter Tree.isDirectory).map namesOf)).run fs
  | .read path next => (next (fs.read path)).run fs
  | .makeDirectory path next =>
      match fs.makeDirectory path with
      | .ok fs => (next (.ok ())).run fs
      | .error e => (next (.error e)).run fs
  | .write path content next =>
      match fs.write path content with
      | .ok fs => (next (.ok ())).run fs
      | .error e => (next (.error e)).run fs

/-- What is left behind by one procedure and then another: the events of both in
order, the second one run on the files of the first. -/
theorem run_bind (p : Procedure α) (f : α → Procedure β) (fs : FileSystem) :
    (p >>= f).run fs =
      match (p.run fs).result with
      | .ok value =>
          let rest := (f value).run (p.run fs).files
          { rest with events := (p.run fs).events ++ rest.events }
      | .error fault => ⟨.error fault, (p.run fs).events, (p.run fs).files⟩ := by
  change (p.andThen f).run fs = _
  induction p generalizing fs with
  | done value => simp [andThen, run]
  | fail fault => simp [andThen, run]
  | report event next ih =>
      simp only [andThen, run, ih]
      cases (next.run fs).result <;> simp
  | look path next ih => simp only [andThen, run, ih]
  | list path next ih => simp only [andThen, run, ih]
  | read path next ih => simp only [andThen, run, ih]
  | makeDirectory path next ih =>
      simp only [andThen, run]
      cases fs.makeDirectory path <;> simp only [ih]
  | write path content next ih =>
      simp only [andThen, run]
      cases fs.write path content <;> simp only [ih]

instance : LawfulMonad Procedure := LawfulMonad.mk' _
  (by
    intro α p
    change p.andThen (fun a => .done a) = p
    induction p with
    | done | fail => rfl
    | report event next ih => simp only [andThen, ih]
    | look path next ih | list path next ih | read path next ih | makeDirectory path next ih
    | write path content next ih => simp only [andThen, ih])
  (by intros; rfl)
  (by
    intro α β γ p f g
    change (p.andThen f).andThen g = p.andThen fun a => (f a).andThen g
    induction p with
    | done | fail => rfl
    | report event next ih => simp only [andThen, ih]
    | look path next ih | list path next ih | read path next ih | makeDirectory path next ih
    | write path content next ih => simp only [andThen, ih])
end Procedure

end ClassChart
