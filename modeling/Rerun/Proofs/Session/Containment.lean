import Rerun.Proofs.Sandbox.Reach
import Rerun.Proofs.Session.Routes

/-!
Where the folders of sessions lie. A key is a text that clients choose, and its folder is where the
text leads from the folder of all sessions: below that folder, and apart from the folders of other
sessions, exactly as far as the routes of the keys are.
-/

namespace Rerun

open Sandbox

namespace Route

end Route

namespace Registry

variable {s : Sandbox} {key : String} {r : Nat} {x : Record}

end Registry

end Rerun
