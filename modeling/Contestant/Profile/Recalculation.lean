import Contestant.Scoring.Scorer

/-!
Recalculating a profile's points from its submissions.

The stored snapshot is written only when the computed one differs from it.  Reading the
submissions, reading the snapshot and writing it may each fail, and a failure leaves the store as
it was.
-/

namespace Contestant

inductive ProfileAccess
  | submissions
  | read
  | write
  deriving DecidableEq

namespace ProfileAccess

def name : ProfileAccess → String
  | submissions => "submissions"
  | read => "read"
  | write => "write"

def failure (access : ProfileAccess) : ServiceFault := .notFound (access.name ++ " unavailable")

/-- What each access fails with while this one is down, if any. -/
def outage (down : Option ProfileAccess) (access : ProfileAccess) : Option ServiceFault :=
  if down = some access then some access.failure else none

end ProfileAccess

structure ProfileStore where
  submissions : List Submission := []
  stored : Snapshot := .blank
  /-- How many snapshots were saved. -/
  writes : Nat := 0
  /-- What an access fails with, if it is down. -/
  faults : ProfileAccess → Option ServiceFault := fun _ => none

namespace ProfileStore

/-- What may happen to a store between recalculations. -/
inductive Event
  | submit (records : List Submission)
  | clear
  | overwrite (snapshot : Snapshot)
  /-- This access is the only one that is down from now on, or none is. -/
  | outage (access : Option ProfileAccess)
  | fail (access : ProfileAccess) (fault : ServiceFault)
  | recover (access : ProfileAccess)

def apply (store : ProfileStore) : Event → ProfileStore
  | .submit records => { store with submissions := store.submissions ++ records }
  | .clear => { store with submissions := [] }
  | .overwrite snapshot => { store with stored := snapshot }
  | .outage access => { store with faults := ProfileAccess.outage access }
  | .fail access fault =>
    { store with faults := fun other => if other = access then some fault else store.faults other }
  | .recover access =>
    { store with faults := fun other => if other = access then none else store.faults other }

/-- The outcome of an operation that would answer `value`. -/
def answering (store : ProfileStore) (access : ProfileAccess) (value : α) :
    Except ServiceFault α :=
  match store.faults access with
  | some fault => .error fault
  | none => .ok value

def save (store : ProfileStore) (snapshot : Snapshot) : ProfileStore :=
  { store with stored := snapshot, writes := store.writes + 1 }

/-- The snapshot that the submissions amount to. -/
def scored (store : ProfileStore) (scorer : Scorer) : Except ServiceFault Snapshot :=
  (scorer.computeTally (.ofSubmissions store.submissions)).mapError InputFault.toService

/-- Computes the snapshot and saves it if it differs from the stored one. -/
def recalculated (store : ProfileStore) (scorer : Scorer) :
    Except ServiceFault (Snapshot × ProfileStore) := do
  let _ ← store.answering .submissions store.submissions
  let snapshot ← store.scored scorer
  let stored ← store.answering .read store.stored
  if snapshot.differsFrom stored then
    let next ← store.answering .write (store.save snapshot)
    return (snapshot, next)
  else
    return (snapshot, store)

def recalculate (store : ProfileStore) (scorer : Scorer) :
    Except ServiceFault Snapshot × ProfileStore :=
  match store.recalculated scorer with
  | .ok (snapshot, next) => (.ok snapshot, next)
  | .error fault => (.error fault, store)

end ProfileStore
end Contestant
