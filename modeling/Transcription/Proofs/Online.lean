import Transcription.Online
import Transcription.Proofs.Json.Persistence
import Transcription.Proofs.Resolution
import Transcription.Proofs.Text.Walk

/-!
# The protocol of a resolution over the web

What a resolution asks for and what comes of it depends on two responses only. The first one gives
an address or it does not, and the second one is asked for only when there is an address. The second
one shows a document or it does not, and the document names a country or it does not.
-/

namespace Transcription

namespace Web

/-- A response tells of success when its status is one of 200 to 299. -/
theorem Response.isSuccess_iff {r : Response} :
    r.isSuccess = true ↔ 200 ≤ r.status ∧ r.status < 300 := by
  simp [isSuccess]

/-- The web that has a page for each target, knows the target that a URL names, and notes the
targets it is asked for, the last one first. -/
def noting (target? : String → Option String) (page : String → Response) :
    Web (StateM (List String)) := fun url =>
  match target? url with
  | none => unreachable url
  | some target => do
    modify (target :: ·)
    pure (.ok (page target))

/-- A server is such a web. -/
theorem Server.web_eq_noting (s : Server) :
    s.web = noting s.target? fun target => (s.page? target).getD notFound := rfl

theorem run_noting {target? : String → Option String} {page : String → Response}
    {url target : String} (h : target? url = some target) (asked : List String) :
    (noting target? page url).run asked = (.ok (page target), target :: asked) := by
  rw [noting, h]
  rfl

end Web

namespace Online

open Json

/-! ### The URL of a location -/

/-- A URL is a template with the text of an address in all places of the mark. -/
def IsFilledFrom (url template : String) (a : Address) : Prop :=
  ∃ parts, template.toList = addressMark.intercalate parts ∧
    url.toList = (toString a).toList.intercalate parts ∧ ∀ p ∈ parts, ¬ addressMark <:+: p

theorem isFilledFrom_geoUrl (template : String) (a : Address) :
    IsFilledFrom (geoUrl template a) template a := by
  have hne : (ofAddress a).target ≠ [] := List.cons_ne_nil _ _
  obtain ⟨part, parts, htemplate, hurl, hparts⟩ :=
    Text.Substitution.exists_parts_walk hne (fun _ _ => rfl) () template.toList
  refine ⟨part :: parts, htemplate, ?_, hparts⟩
  have haddress : (toString a).toList = a.toList := String.toList_ofList
  rw [geoUrl, String.toList_ofList, Text.Substitution.apply_of_target_ne_nil hne, hurl, haddress]
  rfl

/-! ### What responses say -/

/-- A body is the record of a text. -/
def IsReplyOf (body ip : String) : Prop :=
  ∃ j, parse? body = some j ∧
    (j = .array [.ofString ip] ∨ ∃ ms, j = .object ms ∧ IsOnly ms "ip" (.ofString ip))

theorem replyText?_eq_some_iff {body ip : String} :
    replyText? body = some ip ↔ IsReplyOf body ip := by
  have heq : replyText? body = some ip ↔
      ∃ j, parse? body = some j ∧ fields? ["ip"] j = some [some (.ofString ip)] := by
    simp only [replyText?, Option.bind_eq_bind, Option.bind_eq_some_iff]
    constructor
    · rintro ⟨j, hj, given, hgiven, h⟩
      split at h
      · next value =>
          rw [string?_eq_some_iff] at h
          exact ⟨j, hj, h ▸ hgiven⟩
      · cases h
    · rintro ⟨j, hj, hgiven⟩
      exact ⟨j, hj, _, hgiven, rfl⟩
  rw [heq]
  simp only [fields?_singleton_eq_some_iff, IsReplyOf]

/-- A response gives an address: it tells of success and is the record of a text that is the address
with blanks around it. -/
structure Gives (r : Web.Response) (a : Address) : Prop where
  success : 200 ≤ r.status ∧ r.status < 300
  reply : ∃ ip, IsReplyOf r.body ip ∧ Address.ofString? (Text.trim ip) = some a

/-- A response shows a document. -/
structure Shows (r : Web.Response) (j : Json) : Prop where
  success : 200 ≤ r.status ∧ r.status < 300
  document : parseDocument? r.body = some j

/-- What is made of the answer to the question for the public address. -/
def addressOf : Except Web.Failure Web.Response → Except IpError Address
  | .error f => .error (.web f)
  | .ok r => if r.isSuccess then (replyAddress r.body).mapError .reply else .error (.refused r)

/-- What is made of the answer to the question for a country. -/
def countryOf : Except Web.Failure Web.Response → Except GeoError (Option String)
  | .error f => .error (.web f)
  | .ok r =>
    if r.isSuccess then
      match parseDocument? r.body with
      | none => .error .notJson
      | some j => .ok (Country.ofDocument? j)
    else .error (.refused r)

theorem replyAddress_eq_ok_iff {body : String} {a : Address} :
    replyAddress body = .ok a ↔
      ∃ ip, IsReplyOf body ip ∧ Address.ofString? (Text.trim ip) = some a := by
  simp only [← replyText?_eq_some_iff, replyAddress]
  cases replyText? body with
  | none => simp
  | some ip => cases ha : Address.ofString? (Text.trim ip) <;> simp [ha]

theorem addressOf_eq_ok_iff {r : Web.Response} {a : Address} :
    addressOf (.ok r) = .ok a ↔ Gives r a := by
  rw [addressOf]
  constructor
  · intro h
    split at h
    · next hsuccess =>
        exact ⟨Web.Response.isSuccess_iff.mp hsuccess,
          replyAddress_eq_ok_iff.mp (Except.mapError_eq_ok_iff.mp h)⟩
    · cases h
  · rintro ⟨hsuccess, hreply⟩
    rw [if_pos (Web.Response.isSuccess_iff.mpr hsuccess), Except.mapError_eq_ok_iff,
      replyAddress_eq_ok_iff]
    exact hreply

theorem countryOf_eq_ok_iff {r : Web.Response} {country : Option String} :
    countryOf (.ok r) = .ok country ↔ ∃ j, Shows r j ∧ Country.ofDocument? j = country := by
  constructor
  · intro h
    rw [countryOf] at h
    split at h
    · next hsuccess =>
        split at h
        · cases h
        · next j hj =>
            exact ⟨j, ⟨Web.Response.isSuccess_iff.mp hsuccess, hj⟩, Except.ok.inj h⟩
    · cases h
  · rintro ⟨j, ⟨hsuccess, hj⟩, rfl⟩
    rw [countryOf, if_pos (Web.Response.isSuccess_iff.mpr hsuccess), hj]

/-! ### Runs -/

section Runs

variable {σ : Type} {web : Web (StateM σ)} {s t : σ}
variable {answer : Except Web.Failure Web.Response}

theorem run_publicAddress {url : String} (h : (web url).run s = (answer, t)) :
    (publicAddress web url).run s = (addressOf answer, t) := by
  rw [publicAddress, run_bind_of_run_eq h]
  cases answer with
  | error f => rfl
  | ok r =>
      dsimp only [addressOf]
      split <;> rfl

theorem run_locate {template : String} {a : Address}
    (h : (web (geoUrl template a)).run s = (answer, t)) :
    (locate web template a).run s = (countryOf answer, t) := by
  rw [locate, run_bind_of_run_eq h]
  cases answer with
  | error f => rfl
  | ok r =>
      dsimp only [countryOf]
      split
      · cases parseDocument? r.body <;> rfl
      · rfl

/-- A resolver over the web gives the answers that the responses of the two services hold. -/
theorem givesAnswers_resolver {ipUrl template : String}
    {geoAnswer : Address → Except Web.Failure Web.Response} {located : Address → σ}
    (hip : (web ipUrl).run s = (answer, t))
    (hgeo : ∀ a, addressOf answer = .ok a →
      (web (geoUrl template a)).run t = (geoAnswer a, located a)) :
    Resolver.GivesAnswers (resolver web ipUrl template) s (addressOf answer)
      (fun a => countryOf (geoAnswer a)) t located where
  publicAddress := run_publicAddress hip
  locate a ha := run_locate (hgeo a ha)

/-- With a table of ranges nothing more is asked for once the public address is known. -/
theorem givesAnswers_resolverWithTable {ipUrl : String} (hip : (web ipUrl).run s = (answer, t))
    (ranges : GeoTable) :
    Resolver.GivesAnswers (resolverWithTable web ipUrl ranges) s (addressOf answer)
      (fun a => .ok (ranges.lookup a)) t fun _ => t where
  publicAddress := run_publicAddress hip
  locate _ _ := rfl

end Runs

/-! ### The protocol -/

section Responses

variable {first second : Web.Response}

/-- Two responses lead to a country when the first gives an address and the second shows a document
that names the country. -/
theorem leadsTo_iff {country : String} :
    Resolver.LeadsTo (addressOf (.ok first)) (fun _ => countryOf (.ok second)) country ↔
      (∃ a, Gives first a) ∧ ∃ j code, Shows second j ∧ Country.IsNamedIn code j ∧
        country = (Text.trim code).toUpper := by
  simp only [Resolver.LeadsTo, addressOf_eq_ok_iff, countryOf_eq_ok_iff,
    Country.ofDocument?_eq_some_iff, exists_and_right, exists_and_left]

theorem exists_countryOf_eq_error_iff :
    (∃ cause, countryOf (.ok second) = .error cause) ↔ ¬ ∃ j, Shows second j := by
  rw [Except.exists_eq_error_iff, not_iff_not]
  simp only [countryOf_eq_ok_iff]
  constructor
  · rintro ⟨_, j, hj, -⟩
    exact ⟨j, hj⟩
  · rintro ⟨j, hj⟩
    exact ⟨_, j, hj, rfl⟩

end Responses

/-- A resolution makes one request or two, the one for the address first. The second one is made
just when the first response gives an address, and its URL is the template with this address in all
places of the mark. The outcome tells how far the resolution came: no address, no document, no code
in the document that is not blank, no record of the normal form of the code, or the symbol of the
first such record. -/
theorem resolver_protocol (target? : String → Option String) (page : String → Web.Response)
    {ipUrl ipTarget template geoTarget : String} (table : CurrencyTable)
    (hip : target? ipUrl = some ipTarget)
    (hgeo : ∀ a, Gives (page ipTarget) a → target? (geoUrl template a) = some geoTarget) :
    let outcome := ((resolver (Web.noting target? page) ipUrl template).currency table).run []
    ((∃ a, Gives (page ipTarget) a) → outcome.2.reverse = [ipTarget, geoTarget]) ∧
    ((¬ ∃ a, Gives (page ipTarget) a) → outcome.2.reverse = [ipTarget]) ∧
    (∀ a, IsFilledFrom (geoUrl template a) template a) ∧
    ((∃ cause, outcome.1 = .error (.ipLookup cause)) ↔ ¬ ∃ a, Gives (page ipTarget) a) ∧
    (∀ a, (∃ cause, outcome.1 = .error (.geoLookup a cause)) ↔
      Gives (page ipTarget) a ∧ ¬ ∃ j, Shows (page geoTarget) j) ∧
    (∀ a, outcome.1 = .error (.noCountry a) ↔ Gives (page ipTarget) a ∧
      ∃ j, Shows (page geoTarget) j ∧ ¬ ∃ code, Country.IsNamedIn code j) ∧
    (∀ country, outcome.1 = .error (.notFound country) ↔ (∃ a, Gives (page ipTarget) a) ∧
      (∃ j code, Shows (page geoTarget) j ∧ Country.IsNamedIn code j ∧
        country = (Text.trim code).toUpper) ∧ ∀ r ∈ table, r.country ≠ country) ∧
    ∀ symbol, outcome.1 = .ok symbol ↔ (∃ a, Gives (page ipTarget) a) ∧
      ∃ j code r, Shows (page geoTarget) j ∧ Country.IsNamedIn code j ∧
        table.IsFirstOf (Text.trim code).toUpper r ∧ r.symbol = symbol := by
  intro outcome
  have hrun : outcome = _ := (givesAnswers_resolver (Web.run_noting hip []) fun a ha =>
    Web.run_noting (hgeo a (addressOf_eq_ok_iff.mp ha)) [ipTarget]).run_currency table
  rw [hrun]
  simp only [Resolver.currency_eq_error_iff, Resolver.currency_eq_ok_iff]
  refine ⟨?requests, ?request, isFilledFrom_geoUrl template, ?ipLookup, ?geoLookup, ?noCountry,
    ?notFound, ?found⟩
  case requests =>
    rintro ⟨a, ha⟩
    rw [addressOf_eq_ok_iff.mpr ha]
    rfl
  case request =>
    intro hnone
    simp only [← addressOf_eq_ok_iff] at hnone
    obtain ⟨cause, hcause⟩ := Except.exists_eq_error_iff.mpr hnone
    rw [hcause]
    rfl
  case ipLookup =>
    simp only [Resolver.leadsToNoRecord_ipLookup_iff, Except.exists_eq_error_iff,
      addressOf_eq_ok_iff]
  case geoLookup =>
    intro a
    simp only [Resolver.leadsToNoRecord_geoLookup_iff, addressOf_eq_ok_iff, exists_and_left,
      exists_countryOf_eq_error_iff]
  case noCountry =>
    intro a
    simp only [Resolver.leadsToNoRecord_noCountry_iff, addressOf_eq_ok_iff, countryOf_eq_ok_iff,
      Country.ofDocument?_eq_none_iff]
  case notFound =>
    intro country
    rw [Resolver.leadsToNoRecord_notFound_iff, leadsTo_iff, and_assoc]
  case found =>
    intro symbol
    simp only [Resolver.LeadsToRecord, leadsTo_iff]
    constructor
    · rintro ⟨r, ⟨_, ⟨hip, j, code, hj, hcode, rfl⟩, hr⟩, hsymbol⟩
      exact ⟨hip, j, code, r, hj, hcode, hr, hsymbol⟩
    · rintro ⟨hip, j, code, r, hj, hcode, hr, hsymbol⟩
      exact ⟨r, ⟨_, ⟨hip, j, code, hj, hcode, rfl⟩, hr⟩, hsymbol⟩

/-- The record of an address with blanks around it. -/
def addressReply : Json := ofMembers [("ip", .ofString " 203.0.113.7 ")]

/-- A document with a blank code under the preferred key. -/
def countryReply : Json :=
  ofMembers [("country_code", .ofString " "), ("country", .ofString "jp ")]

/-- A server with both services. -/
def twoServices : Web.Server where
  base := "http://127.0.0.1:8080"
  page? target :=
    if target = "/ip" then some ⟨200, compact addressReply⟩
    else if target = "/203.0.113.7/json" then some ⟨200, compact countryReply⟩
    else none

theorem isLegible_addressReply : IsLegible addressReply := by
  refine .ofMembers fun m hm => ?_
  obtain rfl := List.mem_singleton.mp hm
  exact .ofString _

theorem isLegible_countryReply : IsLegible countryReply := by
  refine .ofMembers fun m hm => ?_
  obtain rfl | hm := List.mem_cons.mp hm
  · exact .ofString _
  · obtain rfl := List.mem_singleton.mp hm
    exact .ofString _

/-- The first service gives the address without the blanks, and no other one. -/
theorem gives_addressReply_iff {a : Address} :
    Gives ⟨200, compact addressReply⟩ a ↔ a = .v4 #v[203, 0, 113, 7] := by
  have hreply : replyText? (compact addressReply) = some " 203.0.113.7 " := by
    rw [replyText?, parse?_compact isLegible_addressReply]
    rfl
  have haddress : Address.ofString? (Text.trim " 203.0.113.7 ") =
      some (.v4 #v[203, 0, 113, 7]) := by decide
  constructor
  · rintro ⟨-, ip, hip, ha⟩
    rw [← replyText?_eq_some_iff, hreply] at hip
    obtain rfl := Option.some.inj hip
    exact Option.some.inj (ha.symm.trans haddress)
  · rintro rfl
    exact ⟨by decide, _, replyText?_eq_some_iff.mp hreply, haddress⟩

theorem shows_countryReply : Shows ⟨200, compact countryReply⟩ countryReply where
  success := by decide
  document := by
    rw [parseDocument?, parse?_compact isLegible_countryReply]
    rfl

/-- The code under the preferred key is blank, so the other one counts. -/
theorem isNamedIn_countryReply : Country.IsNamedIn "jp " countryReply := by
  refine .inr ⟨?_, rfl, by decide⟩
  rintro ⟨other, hother, hblank⟩
  obtain rfl : " " = other := by simpa using string?_eq_some_iff.mpr (Option.some.inj hother)
  exact Bool.noConfusion hblank

theorem toUpper_trim_jp : (Text.trim "jp ").toUpper = "JP" := by
  rw [Country.toUpper_trim]
  decide

/-- The server is asked for both targets, and the outcome is the symbol of the country. -/
theorem resolver_protocol_twoServices :
    let outcome := ((resolver twoServices.web "http://127.0.0.1:8080/ip"
      "http://127.0.0.1:8080/\x7bip\x7d/json").currency [⟨"JP", "¥", "ja"⟩]).run []
    outcome.2.reverse = ["/ip", "/203.0.113.7/json"] ∧ outcome.1 = .ok "¥" := by
  have hip : twoServices.target? "http://127.0.0.1:8080/ip" = some "/ip" := by decide
  have hgeo : ∀ a, Gives ⟨200, compact addressReply⟩ a →
      twoServices.target? (geoUrl "http://127.0.0.1:8080/\x7bip\x7d/json" a) =
        some "/203.0.113.7/json" := by
    intro a ha
    rw [gives_addressReply_iff.mp ha]
    decide
  have hgives := gives_addressReply_iff.mpr rfl
  obtain ⟨hboth, -, -, -, -, -, -, hfound⟩ := resolver_protocol twoServices.target?
    (fun target => (twoServices.page? target).getD Web.Server.notFound) [⟨"JP", "¥", "ja"⟩] hip hgeo
  rw [Web.Server.web_eq_noting]
  exact ⟨hboth ⟨_, hgives⟩, (hfound "¥").mpr ⟨⟨_, hgives⟩, countryReply, "jp ", _,
    shows_countryReply, isNamedIn_countryReply, ⟨[], [], rfl, toUpper_trim_jp.symm, by simp⟩, rfl⟩⟩

end Online

end Transcription
