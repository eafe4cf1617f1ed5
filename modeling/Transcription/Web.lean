/-!
# Asking web services

A web answers a request for a URL with a status and a body, or the request cannot be made at all.
A server is the part of a web below one base URL: it has a page for each of its targets, and for
every other target it answers that there is none. What a server is asked is noted.
-/

namespace Transcription

/-- The answer to a request. -/
structure Web.Response where
  status : Nat
  body : String
  deriving Repr, DecidableEq

/-- Why a request has no answer. -/
structure Web.Failure where
  reason : String
  deriving Repr, DecidableEq

/-- A way to make requests, with the effects of `m`. -/
abbrev Web (m : Type → Type) := String → m (Except Web.Failure Web.Response)

namespace Web

/-- Whether a response tells of success. -/
def Response.isSuccess (r : Response) : Bool :=
  decide (200 ≤ r.status) && decide (r.status < 300)

/-- A web that no request reaches. -/
def unreachable [Monad m] : Web m := fun url =>
  pure (.error ⟨"error sending request for url (" ++ url ++ ")"⟩)

/-- A server below a base URL. -/
structure Server where
  base : String
  /-- The page of a target, which is a path with its query. -/
  page? : String → Option Response

namespace Server

/-- The answer to a request for a target without a page. -/
def notFound : Response := ⟨404, ""⟩

/-- The target that the rest of a URL after the base stands for: its path and query, where an
empty path is the root. Text that goes on with the base's own authority is no target. -/
def targetOf? (rest : List Char) : Option (List Char) :=
  match rest.takeWhile (· != '#') with
  | [] => some ['/']
  | '/' :: cs => some ('/' :: cs)
  | '?' :: cs => some ('/' :: '?' :: cs)
  | _ => none

/-- The target on a server that a URL names. -/
def target? (s : Server) (url : String) : Option String :=
  if s.base.toList.isPrefixOf url.toList then
    (targetOf? (url.toList.drop s.base.toList.length)).map String.ofList
  else none

/-- The web that consists of one server and notes the targets it is asked for, the last one
first. -/
def web (s : Server) : Web (StateM (List String)) := fun url =>
  match s.target? url with
  | none => unreachable url
  | some target => do
    modify (target :: ·)
    pure (.ok ((s.page? target).getD notFound))

end Server

end Web

end Transcription
