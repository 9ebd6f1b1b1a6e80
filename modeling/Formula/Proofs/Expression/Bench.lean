import Formula.Expression
import Formula.Registration

/-! # Expressions at one bench

Several expressions are worked on in any order: they are made, their tokens and their notation are asked
for, they are evaluated, and variables are set and read in between. All of them use one registry, which
may be extended until it is closed, and those that share an environment also share its variables.
-/
namespace Formula

structure Bench where
  workspace : Workspace
  expressions : List Expression := []

inductive Task where
  | make (source : String) (settings : Settings)
  | scan (index : Nat)
  | list (index : Nat)
  | evaluate (index : Nat)
  | assign (index : Nat) (name : String) (datum : Datum)
  | fetch (name : String)
  | register (registration : Registration)
  /-- Goes on in another environment, for a host that remembers other things. -/
  | enter (environment : Environment) (memory : Table Value)

def Task.Steady : Task → Prop
  | .register _ | .enter .. => False
  | _ => True

namespace Bench

def revise (bench : Bench) (index : Nat)
    (work : Expression → Workspace → Expression × Workspace) : Bench :=
  match bench.expressions[index]? with
  | none => bench
  | some expression =>
    let (expression, workspace) := work expression bench.workspace
    ⟨workspace, bench.expressions.set index expression⟩

/-- Does one thing. Whatever fails leaves the bench as it was, or as the evaluation left it; only where an
expression cannot be made the work ends. -/
def perform (bench : Bench) : Task → Except Failure Bench
  | .make source settings => do
    let (expression, workspace) ← Expression.make source settings bench.workspace
    return ⟨workspace, bench.expressions ++ [expression]⟩
  | .scan index =>
    .ok (bench.revise index fun expression workspace =>
      ((expression.scanned workspace.registry).2, workspace))
  | .list index =>
    .ok (bench.revise index fun expression workspace =>
      ((expression.listed workspace.registry).2, workspace))
  | .evaluate index =>
    .ok (bench.revise index fun expression workspace =>
      let evaluated := expression.evaluate workspace
      (evaluated.expression, evaluated.workspace))
  | .assign index name datum =>
    .ok (bench.revise index fun expression workspace =>
      match workspace.environment.set expression.settings.context name datum with
      | .ok environment => (expression, { workspace with environment })
      | .error _ => (expression, workspace))
  | .fetch name =>
    let environment := (bench.workspace.environment.read name).2
    .ok { bench with workspace := { bench.workspace with environment } }
  | .register registration =>
    match bench.workspace.registry.register registration with
    | .ok registry => .ok { bench with workspace := { bench.workspace with registry } }
    | .error _ => .ok bench
  | .enter environment memory =>
    .ok { bench with workspace := { bench.workspace with environment, memory } }

def performAll (bench : Bench) : List Task → Except Failure Bench
  | [] => .ok bench
  | task :: tasks => do (← bench.perform task).performAll tasks

theorem revise_inversion (bench : Bench) (index : Nat)
    (work : Expression → Workspace → Expression × Workspace) :
    bench.revise index work = bench ∨ ∃ expression ∈ bench.expressions,
      bench.revise index work = ⟨(work expression bench.workspace).2,
        bench.expressions.set index (work expression bench.workspace).1⟩ := by
  unfold revise
  cases hindex : bench.expressions[index]? with
  | none => exact .inl rfl
  | some expression => exact .inr ⟨expression, List.mem_of_getElem? hindex, rfl⟩

end Bench

end Formula
