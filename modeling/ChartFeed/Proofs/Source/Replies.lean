import ChartFeed.Source.Client

/-!
# Replies that are no JSON

* `Client.IsBroken` : the bytes of a body write no JSON value.
* `Client.answer_of_content` : a call is answered with what it reads off the content of its reply.
* `Client.answer_of_isBroken` : off a broken reply every call reads the same, whatever the bytes.
* `Client.failed_iff_of_isBroken` : of the calls, those for pages fail on a broken reply, and only
  those.
-/

namespace ChartFeed

open Session (Sweep)

namespace Client

variable {σ : Type}

/-- The bytes write no JSON value: they are no text, or the text is not one of a value. -/
def IsBroken (body : List UInt8) : Prop :=
  ∀ text, String.fromUTF8? ⟨body.toArray⟩ = some text → Json.parse? text = none

/-- The call fails, and the table service is at fault. -/
def HasFailed {c : Call} (answer : Except Failure c.Answer) : Prop :=
  ∃ status what, answer = .error (.remote status what)

/-- What the calls read off nothing: no page, but a table without a name and without columns, or no
tables. -/
def emptyAnswer : (c : Call) → Except Failure c.Answer
  | .page .. => .error (.remote Call.badGateway "unreadable page")
  | .schema .. => .ok ⟨"", Database.untitled, []⟩
  | .tables _ => .ok []

theorem read_null (c : Call) : c.read .null = emptyAnswer c := by
  cases c <;> rfl

theorem hasFailed_emptyAnswer_iff {c : Call} :
    HasFailed (emptyAnswer c) ↔
      ∃ (sweep : Sweep) (cursor : Option String), c = sweep.call cursor := by
  constructor
  · rintro ⟨status, what, h⟩
    cases c with
    | page token table query size cursor => exact ⟨⟨token, table, query, size⟩, cursor, rfl⟩
    | schema token table => cases h
    | tables token => cases h
  · rintro ⟨sweep, cursor, rfl⟩
    exact ⟨_, _, rfl⟩

/-! ## Replies -/

theorem value_of_isBroken {body : List UInt8} (h : IsBroken body) : Reply.value body = .null := by
  have hnone : (String.fromUTF8? ⟨body.toArray⟩).bind Json.parse? = none :=
    Option.bind_eq_none_iff.mpr h
  rw [Reply.value, hnone, Option.getD_none]

theorem isBroken_toUTF8 {s : String} (h : Json.parse? s = none) :
    IsBroken s.toUTF8.data.toList := by
  intro text htext
  have hread : String.fromUTF8? ⟨s.toUTF8.data.toList.toArray⟩ = some s := dif_pos s.isValidUTF8
  rw [hread, Option.some.injEq] at htext
  rwa [← htext]

theorem content_of_isBroken {status : Nat} {body : List UInt8} (refusal : String)
    (hsuccess : Reply.isSuccess status = true) (hbroken : IsBroken body) :
    (Reply.answered status body).content refusal = .ok .null := by
  rw [Reply.content, if_pos hsuccess, value_of_isBroken hbroken]

variable {client : Client σ} {c : Call} {s s' : σ}

theorem answer_of_content {reply : Reply} (htoken : checkToken c.token = .ok ())
    (hreply : client.link.exchange (c.request client.base client.version) s = (reply, s')) :
    client.answer c s = ((reply.content c.refusal).bind c.read, s') := by
  unfold answer
  simp only [htoken, hreply]

theorem answer_of_isBroken {status : Nat} {body : List UInt8}
    (htoken : checkToken c.token = .ok ())
    (hreply : client.link.exchange (c.request client.base client.version) s =
      (.answered status body, s'))
    (hsuccess : Reply.isSuccess status = true) (hbroken : IsBroken body) :
    client.answer c s = (emptyAnswer c, s') := by
  rw [answer_of_content htoken hreply, content_of_isBroken _ hsuccess hbroken, Except.bind,
    read_null]

/-- **A broken reply is a failure exactly for the calls that ask for a page.** Under a status of
success, a call for columns or for tables takes such a reply for a table without columns or for an
empty listing. -/
theorem failed_iff_of_isBroken {status : Nat} {body : List UInt8}
    (htoken : checkToken c.token = .ok ())
    (hreply : client.link.exchange (c.request client.base client.version) s =
      (.answered status body, s'))
    (hsuccess : Reply.isSuccess status = true) (hbroken : IsBroken body) :
    client.answer c s = (emptyAnswer c, s') ∧
      (HasFailed (client.answer c s).1 ↔
        ∃ (sweep : Sweep) (cursor : Option String), c = sweep.call cursor) := by
  have hanswer := answer_of_isBroken htoken hreply hsuccess hbroken
  refine ⟨hanswer, ?_⟩
  rw [hanswer]
  exact hasFailed_emptyAnswer_iff

/-- The page that a gateway shows when it has nobody to ask. -/
def gatewayBody : List UInt8 := "<html>502</html>".toUTF8.data.toList

/-- A service behind a gateway that puts its own page under a status of success. -/
def gateway : Client Unit :=
  ⟨"http://127.0.0.1/v1", "2022-06-28", ⟨fun _ s => (.answered 200 gatewayBody, s)⟩⟩

theorem isBroken_gatewayBody : IsBroken gatewayBody := isBroken_toUTF8 (by decide)

theorem checkToken_secretDeals : checkToken "secret_deals" = .ok () := by rfl

def dealsPage : Call := .page "secret_deals" "deals" none 100 none

theorem failed_iff_of_isBroken_gateway :
    checkToken dealsPage.token = .ok () ∧
      gateway.link.exchange (dealsPage.request gateway.base gateway.version) () =
        (.answered 200 gatewayBody, ()) ∧
      Reply.isSuccess 200 = true ∧ IsBroken gatewayBody ∧
      gateway.answer dealsPage () = (emptyAnswer dealsPage, ()) ∧
      (HasFailed (gateway.answer dealsPage ()).1 ↔
        ∃ (sweep : Sweep) (cursor : Option String), dealsPage = sweep.call cursor) :=
  ⟨checkToken_secretDeals, rfl, rfl, isBroken_gatewayBody,
    failed_iff_of_isBroken checkToken_secretDeals rfl rfl isBroken_gatewayBody⟩

/-- The page of the gateway is taken for a table without a name and without columns, and for an
empty listing: neither call fails. -/
theorem not_hasFailed_gateway :
    checkToken "secret_deals" = .ok () ∧ Reply.isSuccess 200 = true ∧ IsBroken gatewayBody ∧
      (gateway.answer (.schema "secret_deals" "deals") ()).1 = .ok ⟨"", "Untitled", []⟩ ∧
      (gateway.answer (.tables "secret_deals") ()).1 = .ok [] ∧
      ¬ HasFailed (gateway.answer (.schema "secret_deals" "deals") ()).1 ∧
      ¬ HasFailed (gateway.answer (.tables "secret_deals") ()).1 := by
  have hschema : gateway.answer (.schema "secret_deals" "deals") () = (emptyAnswer _, ()) :=
    answer_of_isBroken checkToken_secretDeals rfl rfl isBroken_gatewayBody
  have htables : gateway.answer (.tables "secret_deals") () = (emptyAnswer _, ()) :=
    answer_of_isBroken checkToken_secretDeals rfl rfl isBroken_gatewayBody
  rw [hschema, htables]
  refine ⟨checkToken_secretDeals, rfl, isBroken_gatewayBody, rfl, rfl, ?_, ?_⟩
  · rintro ⟨status, what, h⟩
    cases h
  · rintro ⟨status, what, h⟩
    cases h

end Client

end ChartFeed
