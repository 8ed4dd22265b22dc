import Contestant.Form.Forms
import Contestant.Scoring.Scorer
import Contestant.TwoFactor.Credential

/-!
The queries of the service, and what they come to while the database cannot be reached.
-/

namespace Contestant

inductive Query
  | addMember (registration : Registration)
  | findMember (username : String)
  | username (user : Int)
  | profile (user : Int)
  | submissions (user : Int)
  | snapshot (user : Int)
  | saveSnapshot (user : Int) (totals : Snapshot)
  | credential (user : Int)
  | writeCredential (user : Int) (write : TwoFactor.Write)

namespace Query

/-- The failure of a query on a closed pool of connections.  Counts of problems are stored with a
sign in 32 bits, which is checked before a connection is asked for. -/
def failure : Query → ServiceFault
  | saveSnapshot _ totals =>
    if totals.solved.toNat < Nat.pow 2 31 then
      .internal "attempted to acquire a connection on a closed pool"
    else .internal "number too large to fit in target type"
  | _ => .internal "attempted to acquire a connection on a closed pool"

end Query
end Contestant
