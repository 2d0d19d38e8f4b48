import Mathlib.Data.List.Forall2
import ChartFeed.Proofs.Snapshot.Stages
import ChartFeed.Proofs.Snapshot.WriteOnce
import ChartFeed.Proofs.Source.Tokens

/-!
# Tokens stay secret

* `Snapshot.blind`, `Store.blind` : a record and a store as one who cannot see credentials sees them.
* `Step.Alike` : steps that differ at most in the token of a request.
* `World.Alike` : worlds that look the same without tokens and credentials, and go on alike.
* `Vault.alike_perform` : alike steps answer the same in alike worlds and leave alike worlds.
* `Vault.answers_eq_of_alike` : what a run answers, what it asks for and what it stores do not tell of
  the tokens in its requests.
-/

namespace ChartFeed

open ChartFeed.Filter (Query)

variable {σ : Type}

/-! ## Records without credentials -/

/-- A record as it is seen without its credential. -/
def Snapshot.blind (r : Snapshot) : Snapshot := { r with credential := "" }

theorem Snapshot.exists_of_blind_eq {r r' : Snapshot} (h : r.blind = r'.blind) :
    ∃ credential, r' = { r with credential } := by
  refine ⟨r'.credential, ?_⟩
  cases r
  cases r'
  cases h
  rfl

namespace Store

variable {s s' : Store} {r : Snapshot} {id : String} {cipher : Credential.Cipher}

/-- A store as it is seen without the credentials in it. -/
def blind (s : Store) : Store := ⟨s.records.map fun (id, r) => (id, r.blind)⟩

theorem find?_blind (s : Store) (id : String) :
    s.blind.find? id = (s.find? id).map Snapshot.blind := by
  unfold blind find?
  induction s.records with
  | nil => rfl
  | cons entry rest ih =>
    obtain ⟨key, old⟩ := entry
    rw [List.map_cons, lookup_cons, lookup_cons, ih]
    split <;> rfl

theorem insertRecord_blind (r : Snapshot) (records : List (String × Snapshot)) :
    (insertRecord r records).map (fun (id, r) => (id, r.blind)) =
      insertRecord r.blind (records.map fun (id, r) => (id, r.blind)) := by
  induction records with
  | nil => rfl
  | cons entry rest ih =>
    obtain ⟨key, old⟩ := entry
    rw [insertRecord, List.map_cons, insertRecord, ← ih]
    show List.map _ (if key = r.id then _ else _) = if key = r.id then _ else _
    split <;> rfl

theorem blind_insert (s : Store) (r : Snapshot) : (s.insert r).blind = s.blind.insert r.blind :=
  congrArg Store.mk (insertRecord_blind r s.records)

theorem fetch_blind (s : Store) (id : String) :
    s.blind.fetch id = (s.fetch id).map Snapshot.blind := by
  have hblind := s.find?_blind id
  cases hid : isId id with
  | false =>
    rw [fetch_of_not_isId hid, fetch_of_not_isId hid]
    rfl
  | true =>
    cases hfind : s.find? id with
    | none =>
      rw [hfind] at hblind
      rw [fetch_of_none hid hfind, fetch_of_none hid hblind]
      rfl
    | some r =>
      rw [hfind] at hblind
      by_cases hversion : r.schemaVersion ≤ Snapshot.currentVersion
      · rw [fetch_of_find? hid hfind hversion, fetch_of_find? hid hblind hversion]
        rfl
      · have hnewer := Nat.lt_of_not_le hversion
        rw [fetch_of_newer hid hfind hnewer, fetch_of_newer hid hblind hnewer]
        rfl

/-- Every credential of a store decrypts. -/
def Opens (cipher : Credential.Cipher) (s : Store) : Prop :=
  ∀ id r, s.find? id = some r →
    ∃ token, Credential.Cipher.decrypt cipher r.credential = .ok token

theorem Opens.insert (h : s.Opens cipher)
    (hr : ∃ token, Credential.Cipher.decrypt cipher r.credential = .ok token) :
    (s.insert r).Opens cipher := by
  intro id r' hfind
  rw [find?_insert] at hfind
  split at hfind
  · cases hfind
    exact hr
  · exact h id r' hfind

end Store

/-! ## Steps and worlds -/

namespace Vault

/-- A step and itself, or two saves of one request with two tokens that are both acceptable. -/
inductive Step.Alike : Step → Step → Prop where
  | same (step : Step) : Alike step step
  | token (fresh : Fresh) (r : SaveRequest) (token : String) (h : checkToken r.token = .ok ())
      (h' : checkToken token = .ok ()) : Alike (.save fresh r) (.save fresh { r with token })

/-- Two worlds look the same without tokens and credentials, all credentials in them decrypt, and
they go on alike. -/
structure Alike (v : Vault σ Store) (w w' : World σ Store) : Prop where
  dialogues : w.dialogue.Alike v.source w'.dialogue
  stores : w.store.blind = w'.store.blind
  keyed : w.store.IsKeyed
  keyed' : w'.store.IsKeyed
  opens : w.store.Opens v.cipher
  opens' : w'.store.Opens v.cipher

variable {v : Vault σ Store} {w w' : World σ Store} {r r' : Snapshot} {d d' : Dialogue σ}

theorem Alike.insert (h : v.Alike w w') (hd : d.Alike v.source d') (hr : r.blind = r'.blind)
    (hopen : ∃ token, Credential.Cipher.decrypt v.cipher r.credential = .ok token)
    (hopen' : ∃ token, Credential.Cipher.decrypt v.cipher r'.credential = .ok token) :
    v.Alike ⟨d, w.store.insert r⟩ ⟨d', w'.store.insert r'⟩ where
  dialogues := hd
  stores := by rw [Store.blind_insert, Store.blind_insert, h.stores, hr]
  keyed := h.keyed.insert r
  keyed' := h.keyed'.insert r'
  opens := h.opens.insert hopen
  opens' := h.opens'.insert hopen'

theorem Alike.withDialogues (h : v.Alike w w') (hd : d.Alike v.source d') :
    v.Alike ⟨d, w.store⟩ ⟨d', w'.store⟩ :=
  { h with dialogues := hd }

theorem alike_rows (hr : r.blind = r'.blind) (hd : d.Alike v.source d') (token token' : String) :
    (v.rows r token d).1 = (v.rows r' token' d').1 ∧
      (v.rows r token d).2.Alike v.source (v.rows r' token' d').2 := by
  obtain ⟨credential, rfl⟩ := Snapshot.exists_of_blind_eq hr
  show (v.rows r token d).1 = (v.rows r token' d').1 ∧
    (v.rows r token d).2.Alike v.source (v.rows r token' d').2
  have hsweep (query : Option Query) : Session.Sweep.blind ⟨token, r.table, query, v.pageSize⟩ =
      Session.Sweep.blind ⟨token', r.table, query, v.pageSize⟩ := rfl
  by_cases hfilters : r.filters = []
  · rw [rows_of_bare hfilters, rows_of_bare hfilters]
    exact Session.alike_collect (hsweep none) hd _
  · have hnext : (d.after v.source (.schema token r.table)).Alike v.source
        (d'.after v.source (.schema token' r.table)) := hd.after rfl
    have hcolumns : v.columns r token d = v.columns r token' d' :=
      Session.columns_alike hd token token' r.table
    rw [rows_of_filtered hfilters, rows_of_filtered hfilters, hcolumns]
    cases v.columns r token' d' with
    | error f => exact ⟨rfl, hnext⟩
    | ok schema => exact Session.alike_collect (hsweep _) hnext _

theorem drawn_of_blind_eq (hr : r.blind = r'.blind) (rows : List Json) :
    r.drawn rows = r'.drawn rows := by
  obtain ⟨credential, rfl⟩ := Snapshot.exists_of_blind_eq hr
  rfl

theorem blind_stamped_of_blind_eq (hr : r.blind = r'.blind) (fresh : Fresh) :
    (r.stamped fresh).blind = (r'.stamped fresh).blind := by
  obtain ⟨credential, rfl⟩ := Snapshot.exists_of_blind_eq hr
  rfl

/-! ## Alike steps -/

/-- Two results are the same, in alike worlds. -/
def Agree (v : Vault σ Store) {α : Type} (x x' : Except Stop α × World σ Store) : Prop :=
  x.1 = x'.1 ∧ v.Alike x.2 x'.2

theorem Alike.fetch_cases (h : v.Alike w w') (id : String) :
    (∃ f, w.store.fetch id = .error f ∧ w'.store.fetch id = .error f) ∨
      ∃ r r' token token', w.store.fetch id = .ok r ∧ w'.store.fetch id = .ok r' ∧
        r.blind = r'.blind ∧ Credential.Cipher.decrypt v.cipher r.credential = .ok token ∧
        Credential.Cipher.decrypt v.cipher r'.credential = .ok token' := by
  have hfetch : (w.store.fetch id).map Snapshot.blind = (w'.store.fetch id).map Snapshot.blind := by
    rw [← Store.fetch_blind, ← Store.fetch_blind, h.stores]
  cases hr : w.store.fetch id with
  | error f =>
    cases hr' : w'.store.fetch id with
    | error f' =>
      rw [hr, hr'] at hfetch
      cases hfetch
      exact .inl ⟨f, rfl, rfl⟩
    | ok r' =>
      rw [hr, hr'] at hfetch
      cases hfetch
  | ok r =>
    cases hr' : w'.store.fetch id with
    | error f' =>
      rw [hr, hr'] at hfetch
      cases hfetch
    | ok r' =>
      rw [hr, hr'] at hfetch
      obtain ⟨token, htoken⟩ := h.opens id r (Store.fetch_eq_ok hr).2
      obtain ⟨token', htoken'⟩ := h.opens' id r' (Store.fetch_eq_ok hr').2
      exact .inr ⟨r, r', token, token', rfl, rfl, Except.ok.inj hfetch, htoken, htoken'⟩

theorem agree_execute (hshelf : v.shelf = Store.shelf) (h : v.Alike w w') (fresh : Fresh)
    (id : String) : v.Agree (v.execute fresh id w) (v.execute fresh id w') := by
  rw [execute_eq hshelf h.keyed, execute_eq hshelf h.keyed']
  obtain ⟨f, hr, hr'⟩ | ⟨r, r', token, token', hr, hr', hblind, htoken, htoken'⟩ := h.fetch_cases id
  · rw [hr, hr']
    exact ⟨rfl, h⟩
  · -- the records open to tokens that may differ, and are asked for with them
    rw [hr, hr']
    dsimp only
    rw [htoken, htoken']
    dsimp only
    have hrows := alike_rows hblind h.dialogues token token'
    generalize v.rows r token w.dialogue = x at hrows
    generalize v.rows r' token' w'.dialogue = x' at hrows
    obtain ⟨result, d⟩ := x
    obtain ⟨result', d'⟩ := x'
    obtain ⟨hresult, hdialogue⟩ := hrows
    dsimp only at hresult hdialogue
    subst hresult
    cases result with
    | error stop => exact ⟨rfl, h.withDialogues hdialogue⟩
    | ok rows =>
      exact ⟨congrArg Except.ok (drawn_of_blind_eq hblind rows),
        h.insert hdialogue (blind_stamped_of_blind_eq hblind fresh) ⟨token, htoken⟩
          ⟨token', htoken'⟩⟩

theorem agree_config (hshelf : v.shelf = Store.shelf) (h : v.Alike w w') (id : String) :
    v.Agree (v.config id w) (v.config id w') := by
  unfold config
  rw [bind_apply, bind_apply, load_eq hshelf, load_eq hshelf]
  obtain ⟨f, hr, hr'⟩ | ⟨r, r', -, -, hr, hr', hblind, -, -⟩ := h.fetch_cases id
  · rw [hr, hr']
    exact ⟨rfl, h⟩
  · rw [hr, hr']
    obtain ⟨credential, rfl⟩ := Snapshot.exists_of_blind_eq hblind
    exact ⟨rfl, h⟩

theorem checkRequest_withToken {r : SaveRequest} {token : String}
    (h : checkToken r.token = .ok ()) (h' : checkToken token = .ok ()) :
    checkRequest { r with token } = checkRequest r := by
  unfold checkRequest
  rw [h, h']

theorem blind_record_withToken (cipher : Credential.Cipher) (fresh : Fresh) (r : SaveRequest)
    (token : String) :
    (record cipher fresh { r with token }).blind = (record cipher fresh r).blind := by
  unfold record Snapshot.blind
  rfl

theorem agree_save {secret : String} (hcipher : v.cipher = .ofSecret secret)
    (hshelf : v.shelf = Store.shelf) (h : v.Alike w w') (fresh : Fresh) {r r' : SaveRequest}
    (hcheck : checkRequest r' = checkRequest r)
    (hblind : (record v.cipher fresh r').blind = (record v.cipher fresh r).blind) :
    v.Agree (v.save fresh r w) (v.save fresh r' w') := by
  rw [save_eq hshelf, save_eq hshelf, hcheck]
  cases checkRequest r with
  | error f => exact ⟨rfl, h⟩
  | ok _ =>
    dsimp only
    cases checkId (newId fresh) with
    | error f => exact ⟨rfl, h⟩
    | ok _ =>
      exact ⟨rfl, h.insert h.dialogues hblind.symm ⟨_, decrypt_record hcipher fresh r⟩
        ⟨_, decrypt_record hcipher fresh r'⟩⟩

theorem Agree.map {α β : Type} (f : α → β) {x x' : Act σ Store α} (h : v.Agree (x w) (x' w')) :
    v.Agree ((f <$> x) w) ((f <$> x') w') := by
  obtain ⟨hanswer, hworld⟩ := h
  refine ⟨?_, ?_⟩
  · rw [fst_map, fst_map, hanswer]
  · rw [snd_map, snd_map]
    exact hworld

/-- **Alike steps answer the same in alike worlds**, and leave alike worlds. -/
theorem agree_perform {secret : String} (hcipher : v.cipher = .ofSecret secret)
    (hshelf : v.shelf = Store.shelf) (h : v.Alike w w') {step step' : Step}
    (hstep : step.Alike step') : v.Agree (v.perform step w) (v.perform step' w') := by
  cases hstep with
  | same =>
    cases step with
    | save fresh r =>
      have hsave := agree_save hcipher hshelf h fresh (Eq.refl (checkRequest r)) rfl
      exact Agree.map Outcome.saved hsave
    | execute fresh id => exact Agree.map Outcome.executed (agree_execute hshelf h fresh id)
    | config id => exact Agree.map Outcome.shown (agree_config hshelf h id)
  | token fresh r token htoken htoken' =>
    -- both tokens are acceptable, so the requests are refused for other reasons or not at all
    have hcheck := checkRequest_withToken htoken htoken'
    have hblind := blind_record_withToken v.cipher fresh r token
    exact Agree.map Outcome.saved (agree_save hcipher hshelf h fresh hcheck hblind)

/-! ## Runs -/

def answers (v : Vault σ Store) : List Step → World σ Store → List (Except Stop Outcome)
  | [], _ => []
  | step :: steps, w => (v.perform step w).1 :: v.answers steps (v.perform step w).2

theorem alike_run {secret : String} (hcipher : v.cipher = .ofSecret secret)
    (hshelf : v.shelf = Store.shelf) (h : v.Alike w w') {steps steps' : List Step}
    (hsteps : List.Forall₂ Step.Alike steps steps') :
    v.answers steps w = v.answers steps' w' ∧ v.Alike (v.run steps w) (v.run steps' w') := by
  induction hsteps generalizing w w' with
  | nil => exact ⟨rfl, h⟩
  | cons hstep _ ih =>
    obtain ⟨hanswer, hworld⟩ := agree_perform hcipher hshelf h hstep
    obtain ⟨hanswers, hrun⟩ := ih hworld
    rw [answers, answers, hanswer, hanswers]
    exact ⟨rfl, hrun⟩

def blankWorld (start : σ) : World σ Store := ⟨⟨start, []⟩, .empty⟩

theorem alike_blankWorld {start : σ} (h : v.source.IgnoresTokens start) :
    v.Alike (blankWorld start) (blankWorld start) where
  dialogues := ⟨rfl, h⟩
  stores := rfl
  keyed := Store.isKeyed_empty
  keyed' := Store.isKeyed_empty
  opens := nofun
  opens' := nofun

/-- **A token reaches nothing but the calls and the ciphertext.** Two runs of a vault from the same
start, over a source that ignores tokens, have steps that differ at most in the tokens of requests,
both of them acceptable. Then every step answers the same in both, and after every step the calls so
far are the same but for their tokens and the stores are the same but for the credentials. -/
theorem answers_eq_of_alike {secret : String} (hcipher : v.cipher = .ofSecret secret)
    (hshelf : v.shelf = Store.shelf) {start : σ} (hsource : v.source.IgnoresTokens start)
    {steps steps' : List Step} (hsteps : List.Forall₂ Step.Alike steps steps') :
    v.answers steps (blankWorld start) = v.answers steps' (blankWorld start) ∧
      ∀ n, (v.run (steps.take n) (blankWorld start)).dialogue.calls.map Call.blind =
          (v.run (steps'.take n) (blankWorld start)).dialogue.calls.map Call.blind ∧
        (v.run (steps.take n) (blankWorld start)).store.blind =
          (v.run (steps'.take n) (blankWorld start)).store.blind := by
  have hstart := alike_blankWorld hsource
  refine ⟨(alike_run hcipher hshelf hstart hsteps).1, fun n => ?_⟩
  obtain ⟨-, hworlds⟩ := alike_run hcipher hshelf hstart (List.forall₂_take n hsteps)
  exact ⟨hworlds.dialogues.calls, hworlds.stores⟩

theorem ignoresTokens_dealSource : dealSource.IgnoresTokens () := by
  have hanswer : ∀ c c' : Call, c.blind = c'.blind →
      Exchange.blind ⟨c, (dealSource.answer c ()).1⟩ =
        Exchange.blind ⟨c', (dealSource.answer c' ()).1⟩ := by
    rintro (⟨token, table, query, size, _ | cursor⟩ | ⟨token, table⟩ | token) (_ | _ | _) hc <;>
      cases hc <;> rfl
  intro cs
  induction cs with
  | nil =>
    intro cs' hcs
    rw [List.map_eq_nil_iff.mp hcs.symm]
  | cons c cs ih =>
    intro cs' hcs
    cases cs' with
    | nil => cases hcs
    | cons c' cs' =>
      obtain ⟨hc, hcs⟩ := List.cons.inj hcs
      exact congrArg₂ List.cons (hanswer c c' hc) (ih cs' hcs)

def otherDealRun : List Step :=
  .save (momentOf "a") { dealRequest with token := "secret_other" } :: dealRun.tail

theorem answers_eq_of_alike_deals :
    dealVault.source.IgnoresTokens () ∧ List.Forall₂ Step.Alike dealRun otherDealRun ∧
      dealVault.answers dealRun (blankWorld ()) = dealVault.answers otherDealRun (blankWorld ()) ∧
      (dealVault.run dealRun (blankWorld ())).store.blind =
        (dealVault.run otherDealRun (blankWorld ())).store.blind := by
  have htoken : Step.Alike (.save (momentOf "a") dealRequest)
      (.save (momentOf "a") { dealRequest with token := "secret_other" }) :=
    .token _ _ _ (by decide) (by decide)
  have hsteps : List.Forall₂ Step.Alike dealRun otherDealRun :=
    .cons htoken (List.forall₂_same.mpr fun step _ => .same step)
  obtain ⟨hanswers, hworlds⟩ := answers_eq_of_alike (show dealVault.cipher = .ofSecret "key" from rfl)
    rfl ignoresTokens_dealSource hsteps
  exact ⟨ignoresTokens_dealSource, hsteps, hanswers, (hworlds 4).2⟩

end Vault

end ChartFeed
