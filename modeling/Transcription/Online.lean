import Transcription.Address.Reader
import Transcription.Country
import Transcription.GeoTable
import Transcription.Json.Document
import Transcription.Resolution
import Transcription.Text.Substitution
import Transcription.Web.Status

/-!
# Resolution over the web

Two services take part. The first is asked for the public address and answers with a record that
holds it. The second is asked for the country of an address, at a URL that a template with the
address in it gives, and answers with a document. A response that tells of no success is refused
with its status and body.
-/

namespace Transcription.Online

open Json

/-- Why an address reply is not understood. -/
inductive ReplyError where
  /-- The body is no record of an address. -/
  | malformed (body : String)
  /-- The record's text is no address. -/
  | notAnAddress (text : String)
  deriving Repr, DecidableEq

/-- What a user is told. -/
def ReplyError.message : ReplyError → String
  | .malformed body => "无法解析 IP 响应: " ++ body
  | .notAnAddress ip => "无效的 IP 地址: " ++ ip

/-- The text of the address in a reply. -/
def replyText? (body : String) : Option String := do
  let [some ip] ← fields? ["ip"] (← parse? body) | none
  ip.string?

/-- The address in a reply; blanks around it do not count. -/
def replyAddress (body : String) : Except ReplyError Address :=
  match replyText? body with
  | none => .error (.malformed body)
  | some ip =>
    match Address.ofString? (Text.trim ip) with
    | none => .error (.notAnAddress ip)
    | some a => .ok a

/-- Why the public address is not known. -/
inductive IpError where
  | web (failure : Web.Failure)
  | refused (response : Web.Response)
  | reply (error : ReplyError)
  deriving Repr, DecidableEq

/-- What a user is told. -/
def IpError.message : IpError → String
  | .web f => f.reason
  | .refused r => "IP 服务请求失败 (" ++ Web.statusLine r.status ++ "): " ++ r.body
  | .reply e => e.message

/-- Why an address is not located. -/
inductive GeoError where
  | web (failure : Web.Failure)
  | refused (response : Web.Response)
  /-- The body is no document. -/
  | notJson
  deriving Repr, DecidableEq

/-- What a user is told. -/
def GeoError.message : GeoError → String
  | .web f => f.reason
  | .refused r => "地理定位请求失败 (" ++ Web.statusLine r.status ++ "): " ++ r.body
  | .notJson => "error decoding response body"

/-- The place of the address in the template of a URL. -/
def addressMark : List Char := ['\x7b', 'i', 'p', '\x7d']

/-- The substitution of an address for its mark. -/
def ofAddress (a : Address) : Text.Substitution Unit where
  target := addressMark
  replacement := a.toList
  extend _ _ := ()
  admits _ _ := true

/-- The URL at which the country of an address is asked for. -/
def geoUrl (template : String) (a : Address) : String :=
  String.ofList ((ofAddress a).apply () template.toList).text

variable {m : Type → Type} [Monad m]

/-- Ask for the public address. -/
def publicAddress (web : Web m) (url : String) : m (Except IpError Address) := do
  match ← web url with
  | .error f => pure (.error (.web f))
  | .ok r =>
    if r.isSuccess then pure ((replyAddress r.body).mapError .reply)
    else pure (.error (.refused r))

/-- Ask for the country of an address. -/
def locate (web : Web m) (template : String) (a : Address) :
    m (Except GeoError (Option String)) := do
  match ← web (geoUrl template a) with
  | .error f => pure (.error (.web f))
  | .ok r =>
    if r.isSuccess then
      match parseDocument? r.body with
      | none => pure (.error .notJson)
      | some j => pure (.ok (Country.ofDocument? j))
    else pure (.error (.refused r))

/-- The resolver that asks both services. -/
def resolver (web : Web m) (ipUrl geoTemplate : String) : Resolver m IpError GeoError where
  publicAddress := publicAddress web ipUrl
  locate := locate web geoTemplate

/-- The resolver that asks for the address and looks its country up in a table. -/
def resolverWithTable (web : Web m) (ipUrl : String) (table : GeoTable) :
    Resolver m IpError GeoError where
  publicAddress := publicAddress web ipUrl
  locate a := pure (.ok (table.lookup a))

end Transcription.Online
