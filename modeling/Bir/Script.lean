import Bir.Engine.Loading

/-!
# Scripts — one source text, loaded and run

The engine of a script is the first of its run. This file defines:

* `Script.perform` — one step, loading or running;
* `Script.run` — both, up to the first failure;
* `Script.globals` and `Script.uses` — what can be seen of a state from outside.

`Script.ampleBound` stands for no bound: no run nests as deep or takes as many turns.
-/

namespace Bir
namespace Script

/-- The engine of a script. -/
def main : EngineId := 0

/-- A bound that no run comes near: at a billion turns a second a loop has a century and more. -/
def ampleBound : Nat := Nat.pow 2 62

/-- What can be asked of a script. -/
inductive Step where
  | load
  | run
  deriving DecidableEq, Repr, Inhabited

/-- Perform one step. -/
def perform (bound : Nat) : Step → Action Unit
  | .load => load bound main
  | .run => runMain (execute bound) main

/-- Load a script and run it. -/
def run (bound : Nat) : Action Unit := do
  perform bound .load
  perform bound .run

/-- The values of names at the end of a run, seen from the root scope of the script. -/
def globals (state : State) (names : List String) : List (String × Option Int64) :=
  names.map fun name => (name, state.global? main name)

/-- The engines of the modules that the script imports, in the order of creation. -/
def uses (state : State) : List (EngineId × Engine) :=
  (state.engine main).uses.map fun id => (id, state.engine id)

end Script
end Bir
