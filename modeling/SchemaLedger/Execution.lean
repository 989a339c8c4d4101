import SchemaLedger.Ledger.Store

/-!
# Execution of units

An executor runs one unit and tells whether it succeeded. The stock executor hands statements to a
runner: a script is one statement, a coded unit runs its statements in order until one fails and
then raises its own failure, if it has one. A deployment is a ledger store together with the units
that were handed to the executor, which is all that operations leave behind.
-/

namespace SchemaLedger

/-- Runs one statement against the database. -/
abbrev Runner := String → Except Error Unit

/-- Runs one unit. -/
abbrev Executor := Migration → Except Error Unit

def Body.statements : Body → List String
  | script sql => [sql]
  | code procedure => procedure.statements

/-- The failure that a unit raises after its statements. -/
def Body.failure? : Body → Option Error
  | script _ => none
  | code procedure => procedure.failure

namespace Runner

def runAll (runner : Runner) : List String → Except Error Unit
  | [] => .ok ()
  | statement :: rest =>
      match runner statement with
      | .error error => .error error
      | .ok () => runAll runner rest

/-- The executor that hands statements to a runner. -/
def executor (runner : Runner) : Executor := fun migration =>
  match runAll runner migration.body.statements, migration.body.failure? with
  | .error error, _ => .error error
  | .ok (), some error => .error error
  | .ok (), none => .ok ()

end Runner

/-- A ledger store and the units that were executed beside it, in order. -/
structure Deployment (σ : Type) where
  store : σ
  executed : List Migration := []

namespace Deployment

variable {σ α : Type}

def onStore (work : Work σ α) : Work (Deployment σ) α := fun deployment =>
  let (result, store) := work deployment.store
  (result, { deployment with store })

/-- Executes a unit and tells its outcome, which is no failure of the work itself. -/
def execute (executor : Executor) (migration : Migration) :
    Work (Deployment σ) (Except Error Unit) := fun deployment =>
  (.ok (executor migration),
    { deployment with executed := deployment.executed ++ [migration] })

@[simp]
theorem onStore_apply (work : Work σ α) (deployment : Deployment σ) :
    onStore work deployment =
      ((work deployment.store).1, { deployment with store := (work deployment.store).2 }) := rfl

@[simp]
theorem execute_apply (executor : Executor) (migration : Migration) (deployment : Deployment σ) :
    execute executor migration deployment =
      (.ok (executor migration),
        { deployment with executed := deployment.executed ++ [migration] }) := rfl

end Deployment

end SchemaLedger
