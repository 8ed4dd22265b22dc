import Contestant.TwoFactor.Request

/-!
An account under two-factor requests, where a read may show an earlier credential and where reads
or writes may fail.
-/

namespace Contestant
namespace TwoFactor

inductive Access
  | read
  | write
  deriving DecidableEq

namespace Access

def name : Access → String
  | read => "read"
  | write => "write"

def failure (access : Access) : ServiceFault := .notFound (access.name ++ " unavailable")

/-- What each access fails with while this one is down, if any. -/
def outage (down : Option Access) (access : Access) : Option ServiceFault :=
  if down = some access then some access.failure else none

end Access

/-- The live credential of an account and what requests see of it. -/
structure Account where
  live : Credential
  /-- The credential that reads show, where it is not the live one. -/
  frozen : Option Credential := none
  /-- What an access fails with, if it is down. -/
  faults : Access → Option ServiceFault := fun _ => none

namespace Account

/-- What may happen to an account between requests. -/
inductive Event
  | freeze
  | thaw
  | replace (credential : Credential)
  | outage (access : Option Access)

def apply (a : Account) : Event → Account
  | .freeze => { a with frozen := some a.live }
  | .thaw => { a with frozen := none }
  | .replace credential => { a with live := credential }
  | .outage access => { a with faults := Access.outage access }

/-- The credential that a read shows. -/
def seen (a : Account) : Credential := a.frozen.getD a.live

def read (a : Account) : Except ServiceFault Credential :=
  match a.faults .read with
  | some fault => .error fault
  | none => .ok a.seen

/-- The live credential under a write. -/
def write (a : Account) (w : Write) : Except ServiceFault (Bool × Account) :=
  match a.faults .write with
  | some fault => .error fault
  | none =>
    let (done, live) := w.apply a.live
    .ok (done, { a with live })

def carryOut (a : Account) : Decision → Reply × Account
  | .reply reply => (reply, a)
  | .attempt w done failed =>
    match a.write w with
    | .error fault => (.refused (.unavailable fault), a)
    | .ok (true, next) => (done, next)
    | .ok (false, next) => (failed, next)

/-- One request from its read to its write, with nothing in between. -/
def serve (policy : Policy) (a : Account) (request : Request) : Reply × Account :=
  if request.reads then
    match a.read with
    | .error fault => (.refused (.unavailable fault), a)
    | .ok seen => a.carryOut (request.decide policy seen)
  else a.carryOut (request.decide policy a.live)

end Account
end TwoFactor
end Contestant
