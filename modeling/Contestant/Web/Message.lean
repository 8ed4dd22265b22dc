import Contestant.Fault

/-!
Requests and responses of the web service.
-/

namespace Contestant
namespace Web

inductive Method
  | get
  | head
  | post
  | options
  | other (name : String)
  deriving DecidableEq

/-- Methods are told apart by letter case too. -/
def Method.ofName : String → Method
  | "GET" => get
  | "HEAD" => head
  | "POST" => post
  | "OPTIONS" => options
  | name => other name

structure Request where
  method : Method
  /-- The path with the query behind it, possibly with scheme and host in front. -/
  target : String
  headers : List (String × String)
  body : String

namespace Request

/-- What follows the host of a target that names one, with a scheme in front and `://` between.
A target that is not a path and names no scheme has nothing there. -/
def afterHost : List Char → List Char
  | ':' :: '/' :: '/' :: rest => rest.dropWhile fun c => c ≠ '/' && c ≠ '?' && c ≠ '#'
  | _ :: rest => afterHost rest
  | [] => []

/-- The path without scheme, host, query and fragment. -/
def path (r : Request) : String :=
  let target := r.target.toList
  let resource := if target.head? = some '/' then target else afterHost target
  String.ofList (resource.takeWhile fun c => c ≠ '?' && c ≠ '#')

/-- The first header of a name, whose letter case does not matter. -/
def header? (r : Request) (name : String) : Option String :=
  (r.headers.find? fun (key, _) => key.toLower = name).map Prod.snd

end Request

structure Response where
  status : Nat
  headers : List (String × String)
  body : String
  deriving DecidableEq

namespace Response

def empty (status : Nat) : Response := ⟨status, [], ""⟩

def plain (status : Nat) (text : String) : Response :=
  ⟨status, [("content-type", "text/plain; charset=utf-8")], text⟩

def ofFault (fault : ServiceFault) : Response :=
  ⟨fault.status, [("content-type", "application/json")], fault.body⟩

def withHeader (r : Response) (name value : String) : Response :=
  { r with headers := r.headers ++ [(name, value)] }

end Response
end Web
end Contestant
