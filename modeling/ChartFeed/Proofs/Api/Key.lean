import Mathlib.Data.List.Forall2
import ChartFeed.Api.Service
import ChartFeed.Proofs.Snapshot.Stages

/-!
# Nothing happens without the key

A request is decoded first and asked for the key then, so that a request without it is refused for
what is wrong with it, told about the health of the service, or denied.

* `Command.isGuarded_of_ofRoute` : what is asked for at any other route than that of the health is
  guarded.
* `Service.serve` : requests one after the other.
* `Service.IsShutOut` : how a request without the key is answered.
* `Service.serve_without_key` : requests without the key are answered so and leave the world alone.
-/

namespace ChartFeed.Api

variable {σ τ : Type}

def Response.IsSuccess (r : Response) : Prop := 200 ≤ r.status ∧ r.status < 300

theorem Refusal.le_status (r : Refusal) : 400 ≤ r.status := by
  cases r with
  | body fault => cases fault <;> decide
  | _ => decide

/-! ## Guarded commands -/

namespace Command

theorem isGuarded_of_ofRoute {r : Request} {route : Route} {c : Command}
    (h : ofRoute r route = .ok c) (hroute : route ≠ .health) : c.isGuarded = true := by
  have hmap : ∀ {α : Type} {make : α → Command} {x : Except Refusal α},
      (∀ a, (make a).isGuarded = true) → make <$> x = .ok c → c.isGuarded = true := by
    intro α make x hmake hx
    cases x with
    | error refusal => cases hx
    | ok a =>
      cases hx
      exact hmake a
  cases route with
  | health => exact absurd rfl hroute
  | _ => exact hmap (fun _ => rfl) h

theorem route_of_read {r : Request} {c : Command} (h : read r = .ok c) :
    ∃ route, Route.ofTarget? r.target = some route ∧ route.allows r.method = true ∧
      ofRoute r route = .ok c := by
  unfold read at h
  split at h
  · cases h
  · rename_i route hroute
    split at h
    · rename_i hallows
      exact ⟨route, hroute, hallows, h⟩
    · cases h

theorem isHealth_of_not_isGuarded {c : Command} (h : c.isGuarded = false) : c = .health := by
  cases c <;> first | rfl | cases h

end Command

namespace Service

variable {s : Service σ τ} {r : Request} {key : String}

/-! ## One request -/

theorem admits_eq_false (hkey : s.apiKey = some key) (hshown : r.header? "x-api-key" ≠ some key) :
    s.admits r = false := by
  simp [admits, hkey, hshown]

def healthy : Response := .json 200 (.object [("status", .text "ok")])

theorem answer_of_not_admits (hnot : s.admits r = false) (fresh : Fresh) (w : World σ τ) :
    s.answer fresh r w =
      match Command.read r with
      | .error refusal => (some (.refused refusal), w)
      | .ok c => (some (if c.isGuarded then .failed .auth else healthy), w) := by
  unfold answer
  cases hread : Command.read r with
  | error refusal => rfl
  | ok c =>
    cases hguarded : c.isGuarded with
    | true => simp [perform, hguarded, hnot, Act.fail]; rfl
    | false =>
      obtain rfl := Command.isHealth_of_not_isGuarded hguarded
      rfl

/-- How a request is answered that does not show the key: with a success only for the health, and
with the failure of the key if it asks for anything else in a way that can be read. `HEAD` gets the
failure without its value. -/
structure IsShutOut (r : Request) (answer : Option Response) : Prop where
  answered : answer.isSome
  success : ∀ response ∈ answer, response.IsSuccess → Route.ofTarget? r.target = some .health
  denied : ∀ route c, Route.ofTarget? r.target = some route → route ≠ .health →
    Command.read r = .ok c →
      ∃ response ∈ answer, response.status = 401 ∧
        response = if r.method = "HEAD" then (Response.failed .auth).head else .failed .auth

theorem handle_of_answer {fresh : Fresh} {w w' : World σ τ} {response : Response}
    (h : s.answer fresh r w = (some response, w')) :
    s.handle fresh r w = (some (if r.method = "HEAD" then response.head else response), w') := by
  unfold handle
  rw [h]
  by_cases hhead : r.method = "HEAD" <;> simp [hhead]

theorem handle_of_not_admits (hnot : s.admits r = false) (fresh : Fresh) (w : World σ τ) :
    IsShutOut r (s.handle fresh r w).1 ∧ (s.handle fresh r w).2 = w := by
  have hanswer := answer_of_not_admits hnot fresh w
  have hstatus : ∀ response : Response,
      (if r.method = "HEAD" then response.head else response).status = response.status := by
    intro response
    split <;> rfl
  cases hread : Command.read r with
  | error refusal =>
    rw [hread] at hanswer
    rw [handle_of_answer hanswer]
    refine ⟨⟨rfl, ?_, ?_⟩, rfl⟩
    · rintro response hresponse ⟨-, hlt⟩
      cases hresponse
      have hle := refusal.le_status
      rw [hstatus, show (Response.refused refusal).status = refusal.status from rfl] at hlt
      omega
    · intro route c _ _ hok
      cases hread.symm.trans hok
  | ok c =>
    rw [hread] at hanswer
    obtain ⟨route, hroute, -, hc⟩ := Command.route_of_read hread
    by_cases hhealth : route = .health
    · rw [handle_of_answer hanswer]
      refine ⟨⟨rfl, ?_, ?_⟩, rfl⟩
      · intro response _ _
        rw [hroute, hhealth]
      · intro route' c' hroute' hne
        rw [hroute, hhealth] at hroute'
        exact absurd (Option.some.inj hroute').symm hne
    · have hguarded := Command.isGuarded_of_ofRoute hc hhealth
      dsimp only at hanswer
      rw [hguarded, if_pos rfl] at hanswer
      rw [handle_of_answer hanswer]
      refine ⟨⟨rfl, ?_, ?_⟩, rfl⟩
      · rintro response hresponse ⟨-, hlt⟩
        cases hresponse
        rw [hstatus] at hlt
        exact absurd hlt (by decide)
      · intro route' c' _ _ _
        exact ⟨_, rfl, hstatus _, rfl⟩

/-! ## Requests one after the other -/

/-- The answers to requests one after the other, and the world after them. -/
def serve (s : Service σ τ) : List (Fresh × Request) → World σ τ → List (Option Response) × World σ τ
  | [], w => ([], w)
  | (fresh, r) :: requests, w =>
    let (answer, w) := s.handle fresh r w
    let (answers, w) := s.serve requests w
    (answer :: answers, w)

theorem serve_cons (s : Service σ τ) (fresh : Fresh) (r : Request) (requests : List (Fresh × Request))
    (w : World σ τ) :
    s.serve ((fresh, r) :: requests) w =
      ((s.handle fresh r w).1 :: (s.serve requests (s.handle fresh r w).2).1,
        (s.serve requests (s.handle fresh r w).2).2) := rfl

theorem serve_of_not_admits {requests : List (Fresh × Request)} (w : World σ τ)
    (hnot : ∀ request ∈ requests, s.admits request.2 = false) :
    (s.serve requests w).2 = w ∧
      List.Forall₂ (fun request answer => IsShutOut request.2 answer) requests
        (s.serve requests w).1 := by
  induction requests with
  | nil => exact ⟨rfl, .nil⟩
  | cons request requests ih =>
    obtain ⟨fresh, r⟩ := request
    obtain ⟨hfirst, hrest⟩ := List.forall_mem_cons.mp hnot
    obtain ⟨hanswer, hworld⟩ := handle_of_not_admits hfirst fresh w
    obtain ⟨hsame, hanswers⟩ := ih hrest
    rw [serve_cons, hworld]
    exact ⟨hsame, .cons hanswer hanswers⟩

/-- **Nothing happens without the key.** Where a service has a key and no request shows it, the
source is not asked and the store is not written at any moment, only the health of the service is a
success, and whatever else is asked for in a way that can be read is denied. -/
theorem serve_without_key (hkey : s.apiKey = some key) {requests : List (Fresh × Request)}
    (hnone : ∀ request ∈ requests, request.2.header? "x-api-key" ≠ some key) (w : World σ τ) :
    (∀ before, before <+: requests →
      (s.serve before w).2.dialogue = w.dialogue ∧ (s.serve before w).2.store = w.store) ∧
    List.Forall₂ (fun request answer => IsShutOut request.2 answer) requests
      (s.serve requests w).1 := by
  have hnot : ∀ request ∈ requests, s.admits request.2 = false :=
    fun request hrequest => admits_eq_false hkey (hnone request hrequest)
  constructor
  · intro before hbefore
    have hworld := (serve_of_not_admits w fun request hrequest =>
      hnot request (hbefore.subset hrequest)).1
    rw [hworld]
    exact ⟨rfl, rfl⟩
  · exact (serve_of_not_admits w hnot).2

/-- A service for charts of deals, behind a key. -/
def guardedDeals : Service Unit Store := ⟨Vault.brokenVault, some "key"⟩

def executeRequest (headers : List (String × String)) : Request :=
  ⟨"GET", .path "/snapshots/query/query_0_a", headers, ""⟩

/-- A chart is asked for without a key, under a wrong one and under one that cannot be read; the
health is asked for as well. -/
def keylessRequests : List (Fresh × Request) :=
  [executeRequest [], executeRequest [("x-api-key", "Key"), ("x-api-key", "key")],
    executeRequest [("x-api-key", "kéy")], ⟨"GET", .path "/healthz", [], ""⟩].map
    fun r => (Vault.momentOf "", r)

theorem serve_without_key_deals :
    guardedDeals.apiKey = some "key" ∧
      (∀ request ∈ keylessRequests, request.2.header? "x-api-key" ≠ some "key") ∧
      (guardedDeals.serve keylessRequests Vault.dealWorld).2.dialogue = Vault.dealWorld.dialogue ∧
      (guardedDeals.serve keylessRequests Vault.dealWorld).2.store = Vault.dealWorld.store ∧
      ∃ response, (guardedDeals.serve keylessRequests Vault.dealWorld).1.head? = some (some response) ∧
        response.status = 401 := by
  have hnone : ∀ request ∈ keylessRequests, request.2.header? "x-api-key" ≠ some "key" := by decide
  obtain ⟨hworld, hanswers⟩ := serve_without_key (s := guardedDeals) rfl hnone Vault.dealWorld
  obtain ⟨hdialogue, hstore⟩ := hworld keylessRequests List.prefix_rfl
  have hfirst := (List.forall₂_cons.mp hanswers).1
  obtain ⟨response, hresponse, hstatus, -⟩ :=
    hfirst.denied (.execute "query_0_a") (.execute "query_0_a") (by decide) (by decide) (by rfl)
  exact ⟨rfl, hnone, hdialogue, hstore, response, congrArg some hresponse, hstatus⟩

end Service

end ChartFeed.Api
