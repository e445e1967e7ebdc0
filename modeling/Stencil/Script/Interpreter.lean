import Stencil.Script.Statement

/-!
# The interpreter

The operations of a machine that may take a number of steps are made from those of a machine that may
take one step less. With enough steps every script that ends runs to its end; a script that uses them up
is told apart from one that fails.
-/

namespace Stencil.Script

/-- The operations of a machine that may take a number of steps. -/
def operations : Nat → Ops
  | 0 => .exhausted
  | n + 1 => {
      steps := n
      eval := fun env e => Eval.expr (operations n) env e
      call := fun f args named => Call.call (operations n) f args named
      resume := fun env signal tasks => Statement.run (operations n) env n signal tasks
      advance := fun it sent => Iterate.advance (operations n) it sent
      member := fun v name => Member.get (operations n) v name
      repr := fun v => Show.repr (operations n) v
      str := fun v => Show.str (operations n) v
      equal := fun a b => Compare.equal (operations n) a b
      order := fun op a b => Compare.order (operations n) op a b
      format := fun v spec => Fields.write (operations n) v spec }

/-- Runs the statements of a script in the namespace of the machine. -/
def execute (steps : Nat) (body : List Stmt) : Run Unit := do
  let _ ← (operations steps).resume Env.top .proceed [.run body]

end Stencil.Script
