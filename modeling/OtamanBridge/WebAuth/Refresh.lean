import OtamanBridge.WebAuth.Revocation

/-!
# A refresh that is refused

`CeWebAuthService.refresh` is two calls of the store with a question in between: the token
is exchanged, the manager is asked for a session, and where it refuses, all tokens of the
user are taken away. Each call holds the lock of the store; between them the lock is free,
and another refresh may put a new token of the same user into the map.

Whatever the order, each refresh that was given a new token goes on to the revocation, so
the last one to finish leaves none (`OtamanBridge.WebAuth.Refresh.failsClosed`). A token
that has expired by the time the store examines it is not exchanged, the manager is not
asked, and nothing is taken away (`OtamanBridge.WebAuth.Refresh.not_failsClosed`).
-/

namespace OtamanBridge

namespace WebAuth

namespace Refresh

open Py

open Inbox (Encodable)

/-! ### The calls -/

/-- Why a refresh raises. -/
inductive Failure
  /-- `RefreshError` of the store: unknown, or used already. -/
  | unknown
  /-- `RefreshError` of the store: expired. -/
  | expired
  /-- `RefreshError`, for what the manager raised. -/
  | refused (username exc : String)
  /-- Another exception. -/
  | raised
  deriving DecidableEq

/-- Where a refresh stands. -/
inductive Phase
  | begun
  /-- In `consume_and_rotate`. -/
  | exchanging
  /-- The manager is asked for a session. -/
  | asking (username : String) (new : Text)
  /-- The manager has raised, and `revoke_user` is next. -/
  | refused (username exc : String)
  /-- In `revoke_user`. -/
  | revoking (username exc : String)
  /-- The session and the new token. -/
  | returned (token : String) (new : Text)
  | failed (failure : Failure)
  deriving DecidableEq

/-- The call is over. -/
def Phase.finished : Phase → Bool
  | .returned .. => true
  | .failed _ => true
  | _ => false

/-- The store and the calls. That a call has examined its token, and when, is history. -/
structure State where
  store : WebAuth.State Unit
  phase : ℕ → Phase
  examined : ℕ → Option ℤ

/-- The calls are about to begin. -/
def start (store : WebAuth.State Unit) : State := ⟨store, fun _ => .begun, fun _ => none⟩

/-- Time passes, or a call takes its next step; where it needs a new token, it is `new`. -/
inductive Label
  | tick (d : ℕ)
  | move (c : ℕ) (new : Text)

/-- The next step of the thread that holds the lock. -/
def inner (c : ℕ) (new : Text) : Position → WebAuth.Label Unit
  | .entered _ => .act () c
  | .taken .. => .draw () c new
  | .saving _ => .write () c
  | .replacing _ => .replace () c
  | .leaving _ => .leave () c

/-- What `refresh` does when `consume_and_rotate` is over. -/
def exchanged : Outcome → Phase
  | .consumed _ username new => .asking username new
  | .unknown => .failed .unknown
  | .expired => .failed .expired
  | _ => .failed .raised

/-- The thread is about to compare the token with the records. -/
def examines : Position → Bool
  | .entered (.consume _) => true
  | _ => false

/-- The call of the store is left with this outcome. -/
def left : Position → Option Outcome
  | .leaving outcome => some outcome
  | _ => none

namespace State

variable (s : State)

/-- The store has moved, and the call stands there. -/
def go (c : ℕ) (store : WebAuth.State Unit) (phase : Phase) : State :=
  { s with store := store, phase := Function.update s.phase c phase }

/-- The store has moved, inside a call. -/
def on (store : WebAuth.State Unit) (examined : ℕ → Option ℤ) : State :=
  ⟨store, s.phase, examined⟩

/-- A step inside a call of the store. -/
def inside (cfg : Config) (c : ℕ) (new : Text) (next : Outcome → Phase) : Option State :=
  match s.store.procs () with
  | some ⟨_, some (c', position), _⟩ =>
    if c' = c then
      (WebAuth.step cfg s.store (inner c new position)).map fun store =>
        { store := store
          phase := (left position).elim s.phase fun o => Function.update s.phase c (next o)
          examined :=
            if examines position then Function.update s.examined c (some s.store.now)
            else s.examined }
    else none
  | _ => none

end State

section

variable (cfg : Config) (calls : ℕ → Option Text)
  (issueSessionToken : String → Except String String)

/-- One step: of the clock, or of `refresh`. -/
def step (s : State) : Label → Option State
  | .tick d =>
    (WebAuth.step cfg s.store (.tick d)).map fun store => { s with store := store }
  | .move c new =>
    match s.phase c with
    | .begun =>
      match calls c with
      | none => none
      | some raw =>
        (WebAuth.step cfg s.store (.enter () c (.consume raw))).map fun store =>
          s.go c store .exchanging
    | .exchanging => s.inside cfg c new exchanged
    | .asking username new' =>
      match issueSessionToken username with
      | .ok token => some (s.go c s.store (.returned token new'))
      | .error exc => some (s.go c s.store (.refused username exc))
    | .refused username exc =>
      (WebAuth.step cfg s.store (.enter () c (.revoke username))).map fun store =>
        s.go c store (.revoking username exc)
    | .revoking username exc => s.inside cfg c new fun _ => .failed (.refused username exc)
    | _ => none

/-! ### What a step can do -/

/-- The steps, by what they do. -/
inductive Step (s : State) : Label → State → Prop
  | tick (d : ℕ) : Step s (.tick d) { s with store := { s.store with now := s.store.now + d } }
  | enter {c base : ℕ} {new raw : Text} {records : Records} (hphase : s.phase c = .begun)
      (hcall : calls c = some raw) (hup : s.store.procs () = some ⟨records, none, base⟩) :
      Step s (.move c new) (s.go c
        (s.store.move () c (prune s.store.now records) (.entered (.consume raw)) base) .exchanging)
  | revoke {c base : ℕ} {new : Text} {username exc : String} {records : Records}
      (hphase : s.phase c = .refused username exc)
      (hup : s.store.procs () = some ⟨records, none, base⟩) :
      Step s (.move c new) (s.go c
        (s.store.move () c records (.entered (.revoke username)) base) (.revoking username exc))
  | answered {c : ℕ} {new new' : Text} {username token : String}
      (hphase : s.phase c = .asking username new')
      (htoken : issueSessionToken username = .ok token) :
      Step s (.move c new) (s.go c s.store (.returned token new'))
  | refused {c : ℕ} {new new' : Text} {username exc : String}
      (hphase : s.phase c = .asking username new')
      (hexc : issueSessionToken username = .error exc) :
      Step s (.move c new) (s.go c s.store (.refused username exc))
  | missed {c base : ℕ} {new raw : Text} {records : Records} {outcome : Outcome}
      (hat : s.store.At () c records (.entered (.consume raw)) base)
      (houtcome : outcome = .unknown ∨ outcome = .raised)
      (hmiss : Encodable raw → records.lookup (cfg.sha256 raw) = none) :
      Step s (.move c new) (s.on (s.store.move () c records (.leaving outcome) base)
        (Function.update s.examined c (some s.store.now)))
  | counted {c base n : ℕ} {new : Text} {records : Records}
      (hat : s.store.At () c records (.entered .count) base) :
      Step s (.move c new)
        (s.on (s.store.move () c records (.leaving (.counted n)) base) s.examined)
  | dropped {c base : ℕ} {new raw : Text} {records : Records} {record : Record}
      (hat : s.store.At () c records (.entered (.consume raw)) base)
      (hfound : records.lookup (cfg.sha256 raw) = some record) (hexp : record.exp ≤ s.store.now) :
      Step s (.move c new) (s.on
        (s.store.move () c (records.erase (cfg.sha256 raw)) (.saving .expired) base)
        (Function.update s.examined c (some s.store.now)))
  | accepted {c base : ℕ} {new raw : Text} {records : Records} {record : Record}
      (hat : s.store.At () c records (.entered (.consume raw)) base)
      (hfound : records.lookup (cfg.sha256 raw) = some record) :
      Step s (.move c new) (s.on
        ((s.store.move () c (records.erase (cfg.sha256 raw)) (.taken raw record) base).note
          (.accepted () raw s.store.now)) (Function.update s.examined c (some s.store.now)))
  | rotated {c base : ℕ} {new raw : Text} {records : Records} {record : Record}
      (hat : s.store.At () c records (.taken raw record) base)
      (hnew : s.store.origin new = none) :
      Step s (.move c new) (s.on (s.store.mint () cfg c records base new record.username
        ((s.store.origin raw).map fun o => ⟨o.login, o.username, s.store.now + cfg.ttl⟩)
        (.consumed raw record.username new)) s.examined)
  | struck {c base n : ℕ} {new : Text} {records : Records} {username : String}
      (hat : s.store.At () c records (.entered (.revoke username)) base) :
      Step s (.move c new) (s.on (s.store.move () c (withoutUser username records)
        (if n = 0 then .leaving (.revoked username n) else .saving (.revoked username n)) base)
        s.examined)
  | written {c base : ℕ} {new : Text} {records : Records} {outcome : Outcome}
      (hat : s.store.At () c records (.saving outcome) base) :
      Step s (.move c new) (s.on { s.store.move () c records (.replacing outcome) base with
        tmp := some (.records records) } s.examined)
  | replaced {c base : ℕ} {new : Text} {records : Records} {outcome : Outcome} {file : File}
      (hat : s.store.At () c records (.replacing outcome) base) :
      Step s (.move c new) (s.on { (s.store.move () c records (.leaving outcome)
        (s.store.version + 1)).note (.saved () outcome) with
          file := some file, tmp := none, version := s.store.version + 1 } s.examined)
  | leave {c base : ℕ} {new : Text} {records : Records} {outcome : Outcome} {phase : Phase}
      (hat : s.store.At () c records (.leaving outcome) base)
      (hphase : s.phase c = .exchanging ∧ phase = exchanged outcome ∨
        ∃ username exc, s.phase c = .revoking username exc ∧
          phase = .failed (.refused username exc)) :
      Step s (.move c new) (s.go c
        ((s.store.setProc () (some ⟨records, none, base⟩)).note (.returned () c outcome)) phase)

end

variable {cfg : Config} {calls : ℕ → Option Text}
  {issueSessionToken : String → Except String String} {s s' : State} {l : Label}

theorem enter_eq_some {store store' : WebAuth.State Unit} {c : ℕ} {call : Call}
    (h : WebAuth.step cfg store (.enter () c call) = some store') :
    ∃ records base, store.procs () = some ⟨records, none, base⟩ ∧ store' =
      store.move () c (if call.prunes then prune store.now records else records)
        (.entered call) base := by
  cases WebAuth.Step.of_step h with
  | enter call hup => exact ⟨_, _, hup, rfl⟩

theorem At.inj {store : WebAuth.State Unit} {c c' base base' : ℕ} {records records' : Records}
    {position position' : Position} (h : store.At () c records position base)
    (h' : store.At () c' records' position' base') :
    c = c' ∧ records = records' ∧ position = position' ∧ base = base' := by
  obtain ⟨rfl, heq, rfl⟩ := Proc.mk.inj (Option.some.inj (h.symm.trans h'))
  obtain ⟨rfl, rfl⟩ := Prod.mk.inj (Option.some.inj heq)
  exact ⟨rfl, rfl, rfl, rfl⟩

theorem at_move {s : WebAuth.State Unit} {c : ℕ} (records : Records) (position : Position)
    (base : ℕ) : (s.move () c records position base).At () c records position base := by
  simp [State.At, State.move, State.setProc]

theorem procs_leave {s : WebAuth.State Unit} {c : ℕ} (records : Records) (base : ℕ)
    (outcome : Outcome) :
    ((s.setProc () (some ⟨records, none, base⟩)).note (.returned () c outcome)).procs () =
      some ⟨records, none, base⟩ := by
  simp [WebAuth.State.note, WebAuth.State.setProc]

/-- What a call of the store does to the map. -/
theorem Step.of_act {c base : ℕ} {new : Text} {records : Records} {call : Call}
    {store : WebAuth.State Unit} (hat : s.store.At () c records (.entered call) base)
    (h : act cfg s.store () c records base call = some store) :
    Step cfg calls issueSessionToken s (.move c new) (s.on store
      (if examines (.entered call) then Function.update s.examined c (some s.store.now)
        else s.examined)) := by
  cases call with
  | issue username => exact absurd h (by simp [act])
  | consume raw =>
    simp only [act] at h
    split at h
    · split at h
      next hnone =>
        obtain rfl := Option.some.inj h
        exact .missed hat (.inl rfl) fun _ => hnone
      next record hfound =>
        split at h
        next hexp =>
          obtain rfl := Option.some.inj h
          exact .dropped hat hfound hexp
        · obtain rfl := Option.some.inj h
          exact .accepted hat hfound
    next hraw =>
      obtain rfl := Option.some.inj h
      exact .missed hat (.inr rfl) fun henc => absurd henc hraw
  | revoke username =>
    obtain rfl := Option.some.inj h
    exact .struck hat
  | count =>
    obtain rfl := Option.some.inj h
    exact .counted hat

theorem Step.of_inside {c : ℕ} {new : Text} {next : Outcome → Phase}
    (hnext : ∀ o, s.phase c = .exchanging ∧ next o = exchanged o ∨
      ∃ username exc, s.phase c = .revoking username exc ∧
        next o = .failed (.refused username exc))
    (h : s.inside cfg c new next = some s') :
    Step cfg calls issueSessionToken s (.move c new) s' := by
  unfold State.inside at h
  split at h
  next records c' position base hat =>
    by_cases hc : c' = c
    · subst hc
      rw [if_pos rfl] at h
      obtain ⟨store, hstore, rfl⟩ := Option.map_eq_some_iff.mp h
      have hstep := WebAuth.Step.of_step hstore
      cases position with
      | entered call =>
        refine .of_act hat ?_
        simpa [inner, WebAuth.step, show s.store.procs () = _ from hat] using hstore
      | taken raw record =>
        cases hstep with
        | issue hat' hnew =>
          obtain ⟨-, -, heq, -⟩ := At.inj hat hat'
          exact absurd heq (by simp)
        | rotate hat' hnew =>
          obtain ⟨-, rfl, ⟨⟩, rfl⟩ := At.inj hat hat'
          exact .rotated hat hnew
      | saving outcome =>
        cases hstep with
        | write hat' =>
          obtain ⟨-, rfl, ⟨⟩, rfl⟩ := At.inj hat hat'
          exact .written hat
      | replacing outcome =>
        cases hstep with
        | replace hat' htmp =>
          obtain ⟨-, rfl, ⟨⟩, rfl⟩ := At.inj hat hat'
          exact .replaced hat
      | leaving outcome =>
        cases hstep with
        | leave hat' =>
          obtain ⟨-, rfl, ⟨⟩, rfl⟩ := At.inj hat hat'
          exact .leave hat (hnext outcome)
    · rw [if_neg hc] at h
      exact absurd h (by simp)
  · exact absurd h (by simp)

theorem Step.of_step (h : step cfg calls issueSessionToken s l = some s') :
    Step cfg calls issueSessionToken s l s' := by
  unfold Refresh.step at h
  split at h
  next d =>
    obtain ⟨store, hstore, rfl⟩ := Option.map_eq_some_iff.mp h
    obtain rfl := Option.some.inj hstore
    exact .tick d
  next c new =>
    split at h
    next hphase =>
      split at h
      · exact absurd h (by simp)
      next raw hcall =>
        obtain ⟨store, hstore, rfl⟩ := Option.map_eq_some_iff.mp h
        obtain ⟨records, base, hup, rfl⟩ := enter_eq_some hstore
        exact .enter hphase hcall hup
    next hphase => exact .of_inside (fun o => .inl ⟨hphase, rfl⟩) h
    next username new' hphase =>
      split at h
      next token htoken =>
        obtain rfl := Option.some.inj h
        exact .answered hphase htoken
      next exc hexc =>
        obtain rfl := Option.some.inj h
        exact .refused hphase hexc
    next username exc hphase =>
      obtain ⟨store, hstore, rfl⟩ := Option.map_eq_some_iff.mp h
      obtain ⟨records, base, hup, rfl⟩ := enter_eq_some hstore
      exact .revoke hphase hup
    next username exc hphase => exact .of_inside (fun o => .inr ⟨_, _, hphase, rfl⟩) h
    · exact absurd h (by simp)

/-- The store takes one of its steps, or none. -/
theorem store_of_step (h : step cfg calls issueSessionToken s l = some s') :
    s'.store = s.store ∨ ∃ l', WebAuth.Step cfg s.store l' s'.store := by
  have hmap : ∀ {l' : WebAuth.Label Unit} {f : WebAuth.State Unit → State},
      (∀ store, (f store).store = store) → (WebAuth.step cfg s.store l').map f = some s' →
      s'.store = s.store ∨ ∃ l', WebAuth.Step cfg s.store l' s'.store := by
    intro l' f hf hs
    obtain ⟨store, hstore, rfl⟩ := Option.map_eq_some_iff.mp hs
    exact .inr ⟨l', by rw [hf]; exact .of_step hstore⟩
  have hinside : ∀ {c : ℕ} {new : Text} {next : Outcome → Phase},
      s.inside cfg c new next = some s' →
      s'.store = s.store ∨ ∃ l', WebAuth.Step cfg s.store l' s'.store := by
    intro c new next hs
    unfold State.inside at hs
    split at hs
    · split at hs
      · exact hmap (fun _ => rfl) hs
      · exact absurd hs (by simp)
    · exact absurd hs (by simp)
  unfold Refresh.step at h
  split at h
  · exact hmap (fun _ => rfl) h
  split at h
  · split at h
    · exact absurd h (by simp)
    · exact hmap (fun _ => rfl) h
  · exact hinside h
  · split at h <;> exact .inl (by rw [← Option.some.inj h]; rfl)
  · exact hmap (fun _ => rfl) h
  · exact hinside h
  · exact absurd h (by simp)

/-! ### Calls that hold tokens of one user -/

/-- The token is one of this user: it was made for him, and, like every text of
`token_urlsafe`, it can be encoded. -/
def TokenOf (store : WebAuth.State Unit) (u : String) (raw : Text) : Prop :=
  Encodable raw ∧ ∃ o, store.origin raw = some o ∧ o.username = u

/-- The call has got nowhere but with this user. -/
def OfUser (u : String) : Phase → Prop
  | .asking username _ => username = u
  | .refused username _ => username = u
  | .revoking username _ => username = u
  | .returned .. => False
  | _ => True

/-- The outcome is one that a call of this user has in this phase. -/
def OutcomeFits (u : String) (phase : Phase) : Outcome → Prop
  | .consumed _ username _ => phase = .exchanging ∧ username = u
  | .revoked .. => ∃ exc, phase = .revoking u exc
  | .issued .. => False
  | .counted _ => False
  | _ => phase = .exchanging

/-- The position is one that a call of this user has in this phase. -/
def Fits (u : String) (call : Option Text) (phase : Phase) : Position → Prop
  | .entered (.consume raw) => phase = .exchanging ∧ call = some raw
  | .entered (.revoke username) => username = u ∧ ∃ exc, phase = .revoking u exc
  | .entered _ => False
  | .taken _ record => phase = .exchanging ∧ record.username = u
  | .saving outcome => OutcomeFits u phase outcome
  | .replacing outcome => OutcomeFits u phase outcome
  | .leaving outcome => OutcomeFits u phase outcome

variable {u : String} {store₀ : WebAuth.State Unit} {records records₀ : Records}

theorem OutcomeFits.phase {phase : Phase} {outcome : Outcome} (h : OutcomeFits u phase outcome) :
    phase = .exchanging ∨ ∃ exc, phase = .revoking u exc := by
  cases outcome with
  | consumed raw username new => exact .inl h.1
  | revoked username n => exact .inr h
  | issued username raw => exact absurd h id
  | counted n => exact absurd h id
  | unknown => exact .inl h
  | expired => exact .inl h
  | raised => exact .inl h

/-- Whoever holds the lock is in a call of the store. -/
theorem Fits.phase {call : Option Text} {phase : Phase} {position : Position}
    (h : Fits u call phase position) : phase = .exchanging ∨ ∃ exc, phase = .revoking u exc := by
  cases position with
  | entered call' =>
    cases call' with
    | consume raw => exact .inl h.1
    | revoke username => exact .inr h.2
    | issue username => exact absurd h id
    | count => exact absurd h id
  | taken raw record => exact .inl h.1
  | saving outcome => exact OutcomeFits.phase h
  | replacing outcome => exact OutcomeFits.phase h
  | leaving outcome => exact OutcomeFits.phase h

/-- What is known of the calls and the tokens. -/
structure Kept (cfg : Config) (calls : ℕ → Option Text) (u : String)
    (store₀ : WebAuth.State Unit) (s : State) : Prop where
  known : Known cfg s.store
  origin : ∀ raw o, store₀.origin raw = some o → s.store.origin raw = some o
  up : ∃ proc, s.store.procs () = some proc
  phase : ∀ c, OfUser u (s.phase c)
  holder : ∀ c records position base, s.store.At () c records position base →
    Fits u (calls c) (s.phase c) position

/-- Where the lock stands after a step. -/
theorem holder_of_at {store : WebAuth.State Unit} {c base : ℕ} {position : Position}
    {phase : ℕ → Phase} (hat : store.At () c records position base)
    (hfits : Fits u (calls c) (phase c) position) :
    ∀ c records position base, store.At () c records position base →
      Fits u (calls c) (phase c) position := by
  intro c' records' position' base' hat'
  obtain ⟨rfl, -, rfl, -⟩ := At.inj hat hat'
  exact hfits

@[simp] theorem phase_go_self {c : ℕ} {store : WebAuth.State Unit} {phase : Phase} :
    (s.go c store phase).phase c = phase := Function.update_self ..

theorem phase_go_of_ne {c c' : ℕ} {store : WebAuth.State Unit} {phase : Phase} (h : c' ≠ c) :
    (s.go c store phase).phase c' = s.phase c' := Function.update_of_ne h ..

theorem ofUser_go (h : ∀ c, OfUser u (s.phase c)) {c : ℕ} {phase : Phase}
    (hphase : OfUser u phase) {store : WebAuth.State Unit} :
    ∀ c', OfUser u ((s.go c store phase).phase c') := by
  intro c'
  rcases eq_or_ne c' c with rfl | hne
  · rwa [phase_go_self]
  · rw [phase_go_of_ne hne]
    exact h c'

theorem Kept.ofUser (hI : Kept cfg calls u store₀ s) {c : ℕ} {phase : Phase}
    (h : s.phase c = phase) : OfUser u phase := by
  rw [← h]
  exact hI.phase c

/-- A record that a call finds is one of its user. -/
theorem Kept.username_of_found (hI : Kept cfg calls u store₀ s)
    (hheld : ∀ c raw, calls c = some raw → TokenOf store₀ u raw) {c base : ℕ} {raw : Text}
    {record : Record} (hat : s.store.At () c records (.entered (.consume raw)) base)
    (hfound : records.lookup (cfg.sha256 raw) = some record) : record.username = u := by
  obtain ⟨-, o, ho, husername⟩ := hheld c raw (hI.holder _ _ _ _ hat).2
  obtain ⟨o', ho', hrecord⟩ := (hI.known.procs _ _ hat).sound.lookup hfound
  obtain rfl := Option.some.inj ((hI.origin raw o ho).symm.trans ho')
  rw [hrecord, husername]

/-- **What the calls of one user keep**, while the manager refuses him. -/
theorem Kept.step (hI : Kept cfg calls u store₀ s)
    (hrefuses : ∀ token, issueSessionToken u ≠ .ok token)
    (hheld : ∀ c raw, calls c = some raw → TokenOf store₀ u raw)
    (hl : Refresh.step cfg calls issueSessionToken s l = some s') :
    Kept cfg calls u store₀ s' := by
  have hknown : Known cfg s'.store ∧
      ∀ raw o, store₀.origin raw = some o → s'.store.origin raw = some o := by
    rcases store_of_step hl with heq | ⟨l', hstep⟩
    · rw [heq]
      exact ⟨hI.known, hI.origin⟩
    · exact ⟨hI.known.step hstep, fun raw o ho => hstep.origin (hI.origin raw o ho)⟩
  obtain ⟨hknown, horigin⟩ := hknown
  -- a step inside a call of the store leaves the phases alone
  have hinside : ∀ {c : ℕ} {records : Records} {position : Position} {base : ℕ},
      s'.phase = s.phase → s'.store.At () c records position base →
      Fits u (calls c) (s.phase c) position → Kept cfg calls u store₀ s' := by
    intro c records position base hphase hat hfits
    refine ⟨hknown, horigin, ⟨_, hat⟩, by rw [hphase]; exact hI.phase, holder_of_at hat ?_⟩
    rwa [hphase]
  cases Step.of_step hl with
  | tick d => exact ⟨hknown, horigin, hI.up, hI.phase, hI.holder⟩
  | @enter c base new raw records hphase hcall hup =>
    exact ⟨hknown, horigin, ⟨_, at_move ..⟩,
      ofUser_go hI.phase (show OfUser u .exchanging from trivial),
      holder_of_at (at_move ..) ⟨phase_go_self, hcall⟩⟩
  | @revoke c base new username exc records hphase hup =>
    obtain rfl : username = u := hI.ofUser hphase
    exact ⟨hknown, horigin, ⟨_, at_move ..⟩,
      ofUser_go hI.phase (show OfUser username (.revoking username exc) from rfl),
      holder_of_at (at_move ..) ⟨rfl, exc, phase_go_self⟩⟩
  | @answered c new new' username token hphase htoken =>
    obtain rfl : username = u := hI.ofUser hphase
    exact absurd htoken (hrefuses token)
  | @refused c new new' username exc hphase hexc =>
    obtain rfl : username = u := hI.ofUser hphase
    refine ⟨hknown, horigin, hI.up,
      ofUser_go hI.phase (show OfUser username (.refused username exc) from rfl),
      fun c' records position base hat => ?_⟩
    have hfits := hI.holder c' records position base hat
    have hne : c' ≠ c := by
      rintro rfl
      rcases hfits.phase with heq | ⟨exc, heq⟩ <;> exact absurd (hphase.symm.trans heq) (by simp)
    rwa [phase_go_of_ne hne]
  | @missed c base new raw records outcome hat houtcome hmiss =>
    refine hinside rfl (at_move ..) ?_
    rcases houtcome with rfl | rfl <;> exact (hI.holder _ _ _ _ hat).1
  | counted hat => exact absurd (hI.holder _ _ _ _ hat) id
  | dropped hat hfound hexp => exact hinside rfl (at_move ..) (hI.holder _ _ _ _ hat).1
  | @accepted c base new raw records record hat hfound =>
    obtain ⟨hphase, hcall⟩ := hI.holder _ _ _ _ hat
    exact hinside rfl (at_move (s := s.store) ..) ⟨hphase, hI.username_of_found hheld hat hfound⟩
  | rotated hat hnew =>
    have hfits := hI.holder _ _ _ _ hat
    exact hinside rfl (at_move (s := s.store) ..) hfits
  | @struck c base n new records username hat =>
    refine hinside rfl (at_move ..) ?_
    split_ifs <;> exact (hI.holder _ _ _ _ hat).2
  | written hat =>
    have hfits := hI.holder _ _ _ _ hat
    exact hinside rfl (at_move (s := s.store) ..) hfits
  | replaced hat =>
    have hfits := hI.holder _ _ _ _ hat
    exact hinside rfl (at_move (s := s.store) ..) hfits
  | @leave c base new records outcome phase hat hphase =>
    have hfits : OutcomeFits u (s.phase c) outcome := hI.holder _ _ _ _ hat
    have hfree := procs_leave (s := s.store) (c := c) records base outcome
    refine ⟨hknown, horigin, ⟨_, hfree⟩, ofUser_go hI.phase ?_, fun c' _ _ _ hat' => ?_⟩
    · rcases hphase with ⟨hphase, rfl⟩ | ⟨username, exc, hphase, rfl⟩
      · cases outcome with
        | consumed raw username new => exact hfits.2
        | _ => trivial
      · trivial
    · exact absurd (hfree.symm.trans hat') (by simp)

/-! ### The other users -/

/-- The good records of other users are the ones there were. -/
def Others (u : String) (now : ℤ) (records₀ records : Records) : Prop :=
  ∀ k record, record.username ≠ u → now < record.exp →
    (records.lookup k = some record ↔ records₀.lookup k = some record)

theorem Others.of_le {now now' : ℤ} (h : Others u now records₀ records) (hle : now ≤ now') :
    Others u now' records₀ records :=
  fun k record hne hlt => h k record hne (by omega)

theorem Others.of_iff {now : ℤ} {records' : Records} (h : Others u now records₀ records)
    (hiff : ∀ k record, record.username ≠ u → now < record.exp →
      (records'.lookup k = some record ↔ records.lookup k = some record)) :
    Others u now records₀ records' :=
  fun k record hne hlt => (hiff k record hne hlt).trans (h k record hne hlt)

theorem Others.keep {now : ℤ} {f : Record → Bool} (h : Others u now records₀ records)
    (hf : ∀ record : Record, record.username ≠ u → now < record.exp → f record) :
    Others u now records₀ (Dict.keep f records) :=
  h.of_iff fun _ record hne hlt =>
    Dict.lookup_keep_eq_some.trans (and_iff_left (hf record hne hlt))

/-- A record of the user is taken out. -/
theorem Others.erase {now : ℤ} {k : Text} {record : Record} (h : Others u now records₀ records)
    (hfound : records.lookup k = some record) (hu : record.username = u) :
    Others u now records₀ (records.erase k) := by
  refine h.of_iff fun k' record' hne _ => ⟨Dict.lookup_of_erase, fun hk' => ?_⟩
  rwa [AList.lookup_erase_ne]
  rintro rfl
  obtain rfl := Option.some.inj (hfound.symm.trans hk')
  exact hne hu

/-- A record of the user is put in, where there was none. -/
theorem Others.insert {now : ℤ} {k : Text} {record : Record} (h : Others u now records₀ records)
    (hfree : records.lookup k = none) (hu : record.username = u) :
    Others u now records₀ (records.insert k record) := by
  refine h.of_iff fun k' record' hne _ => ⟨fun hk' => ?_, fun hk' => ?_⟩
  · rcases Dict.lookup_of_insert hk' with ⟨-, rfl⟩ | ⟨-, hk'⟩
    · exact absurd hu hne
    · exact hk'
  · rwa [AList.lookup_insert_ne]
    rintro rfl
    exact absurd (hfree.symm.trans hk') (by simp)

/-- A token that was not made has no record. -/
theorem lookup_of_fresh {store : WebAuth.State Unit} (hsound : Sound cfg store records)
    {new : Text} (hnew : store.origin new = none) :
    records.lookup (cfg.sha256 new) = none := by
  rcases hfound : records.lookup (cfg.sha256 new) with _ | record
  · rfl
  · obtain ⟨o, ho, -⟩ := hsound.lookup hfound
    exact absurd (hnew.symm.trans ho) (by simp)

/-- **The tokens of other users are left alone.** -/
theorem Others.step (hI : Kept cfg calls u store₀ s)
    (hheld : ∀ c raw, calls c = some raw → TokenOf store₀ u raw)
    (h : ∀ proc, s.store.procs () = some proc → Others u s.store.now records₀ proc.records)
    (hl : Step cfg calls issueSessionToken s l s') :
    ∀ proc, s'.store.procs () = some proc → Others u s'.store.now records₀ proc.records := by
  have hone : ∀ {records : Records} {holder : Option (ℕ × Position)} {base : ℕ},
      s'.store.procs () = some ⟨records, holder, base⟩ →
      Others u s'.store.now records₀ records →
      ∀ proc, s'.store.procs () = some proc → Others u s'.store.now records₀ proc.records := by
    intro records holder base hproc hothers proc' hproc'
    obtain rfl := Option.some.inj (hproc.symm.trans hproc')
    exact hothers
  cases hl with
  | tick d =>
    have hle : s.store.now ≤ s.store.now + d :=
      Int.le_add_of_nonneg_right (Int.natCast_nonneg d)
    exact fun proc hproc => (h proc hproc).of_le hle
  | enter hphase hcall hup =>
    refine hone (at_move (s := s.store) ..) ((h _ hup).keep fun record _ hlt => ?_)
    exact decide_eq_true hlt
  | revoke hphase hup => exact hone (at_move (s := s.store) ..) (h _ hup)
  | answered | refused => exact h
  | missed hat | counted hat | written hat | replaced hat =>
    exact hone (at_move (s := s.store) ..) (h _ hat)
  | dropped hat hfound | accepted hat hfound =>
    exact hone (at_move (s := s.store) ..)
      ((h _ hat).erase hfound (hI.username_of_found hheld hat hfound))
  | rotated hat hnew =>
    exact hone (at_move (s := s.store) ..)
      ((h _ hat).insert (lookup_of_fresh (hI.known.procs _ _ hat).sound hnew)
        (hI.holder _ _ _ _ hat).2)
  | struck hat =>
    obtain rfl := (hI.holder _ _ _ _ hat).1
    refine hone (at_move (s := s.store) ..) ((h _ hat).keep fun record hne _ => ?_)
    exact decide_eq_true hne
  | leave hat hphase => exact hone (procs_leave ..) (h _ hat)

/-! ### What is owed -/

/-- The call was given a new token, and has not revoked yet. -/
def owesAt : Position → Bool
  | .entered (.revoke _) => true
  | position => position.spends.isSome

def owesIn : Phase → Bool
  | .asking .. => true
  | .refused .. => true
  | _ => false

/-- A revocation is still to come from this call. -/
def Owes (s : State) (c : ℕ) : Prop :=
  owesIn (s.phase c) ∨ ∃ records position base, s.store.At () c records position base ∧
    owesAt position

/-- Someone owes a revocation, or the user has no record. -/
def Settled (u : String) (s : State) : Prop :=
  (∃ c, Owes s c) ∨ ∀ proc, s.store.procs () = some proc → NoneFor u proc.records

/-- Nothing has been taken: the good records of the user are still there, and the calls
that examined a token did so when it was expired. -/
structure Untouched (cfg : Config) (calls : ℕ → Option Text) (u : String) (records₀ : Records)
    (s : State) : Prop where
  records : ∀ proc, s.store.procs () = some proc → ∀ k record, records₀.lookup k = some record →
    record.username = u → s.store.now < record.exp → proc.records.lookup k = some record
  examined : ∀ c raw record time, calls c = some raw →
    records₀.lookup (cfg.sha256 raw) = some record → s.examined c = some time →
      record.exp ≤ time

/-- A step after which whoever owed still does. -/
theorem Settled.of_quiet (h : Settled u s) (hphase : ∀ c, owesIn (s.phase c) → Owes s' c)
    (hat : ∀ c records position base, s.store.At () c records position base → owesAt position →
      Owes s' c)
    (hnone : ∀ proc', s'.store.procs () = some proc' →
      ∃ proc, s.store.procs () = some proc ∧ (NoneFor u proc.records → NoneFor u proc'.records)) :
    Settled u s' := by
  rcases h with ⟨c, howes | ⟨records, position, base, hc, howes⟩⟩ | hall
  · exact .inl ⟨c, hphase c howes⟩
  · exact .inl ⟨c, hat c records position base hc howes⟩
  · refine .inr fun proc' hproc' => ?_
    obtain ⟨proc, hproc, himp⟩ := hnone proc' hproc'
    exact himp (hall proc hproc)

/-- A step of the thread that holds the lock. -/
theorem Settled.of_at (h : Settled u s) {c base : ℕ} {position : Position}
    (hat : s.store.At () c records position base) (howes : owesAt position → Owes s' c)
    (hphase : ∀ c, owesIn (s.phase c) → Owes s' c) {records' : Records}
    {holder : Option (ℕ × Position)} {base' : ℕ}
    (hproc : s'.store.procs () = some ⟨records', holder, base'⟩)
    (hnone : NoneFor u records → NoneFor u records') : Settled u s' := by
  refine h.of_quiet hphase (fun c' _ position' _ hat' howes' => ?_) fun proc' hproc' => ?_
  · obtain ⟨rfl, -, rfl, -⟩ := At.inj hat hat'
    exact howes howes'
  · obtain rfl := Option.some.inj (hproc.symm.trans hproc')
    exact ⟨_, hat, hnone⟩

/-- **What is settled stays so**: a new token comes with a revocation that is owed. -/
theorem Settled.step (hI : Kept cfg calls u store₀ s)
    (hrefuses : ∀ token, issueSessionToken u ≠ .ok token) (h : Settled u s)
    (hl : Step cfg calls issueSessionToken s l s') : Settled u s' := by
  cases hl with
  | tick d => exact h
  | @enter c base new raw records hphase hcall hup =>
    refine h.of_quiet (fun c' howes => .inl ?_) (fun c' _ _ _ hat => ?_) fun proc' hproc' => ?_
    · have hne : c' ≠ c := by
        rintro rfl
        rw [hphase] at howes
        exact absurd howes (by simp [owesIn])
      rwa [phase_go_of_ne hne]
    · exact absurd (hup.symm.trans hat) (by simp)
    · obtain rfl := Option.some.inj ((at_move (s := s.store) ..).symm.trans hproc')
      exact ⟨_, hup, fun hnone => hnone.mono fun _ _ hk => (Dict.lookup_keep_eq_some.mp hk).1⟩
  | @revoke c base new username exc records hphase hup =>
    exact .inl ⟨c, .inr ⟨_, _, _, at_move (s := s.store) .., rfl⟩⟩
  | @answered c new new' username token hphase htoken =>
    obtain rfl : username = u := hI.ofUser hphase
    exact absurd htoken (hrefuses token)
  | @refused c new new' username exc hphase hexc =>
    exact .inl ⟨c, .inl (by rw [phase_go_self]; rfl)⟩
  | missed hat =>
    exact h.of_at hat (by simp [owesAt, Position.spends]) (fun _ => .inl)
      (at_move (s := s.store) ..) id
  | counted hat => exact absurd (hI.holder _ _ _ _ hat) id
  | dropped hat =>
    exact h.of_at hat (by simp [owesAt, Position.spends]) (fun _ => .inl)
      (at_move (s := s.store) ..) fun hnone => hnone.mono fun _ _ => Dict.lookup_of_erase
  | @accepted c base new raw records record hat hfound =>
    exact .inl ⟨c, .inr ⟨_, _, _, at_move (s := s.store) .., rfl⟩⟩
  | @rotated c base new raw records record hat hnew =>
    exact .inl ⟨c, .inr ⟨_, _, _, at_move (s := s.store) .., rfl⟩⟩
  | struck hat =>
    obtain rfl := (hI.holder _ _ _ _ hat).1
    refine .inr fun proc hproc => ?_
    obtain rfl := Option.some.inj ((at_move (s := s.store) ..).symm.trans hproc)
    exact noneFor_withoutUser
  | @written c base new records outcome hat =>
    exact h.of_at hat (fun howes => .inr ⟨_, _, _, at_move (s := s.store) .., howes⟩)
      (fun _ => .inl) (at_move (s := s.store) ..) id
  | @replaced c base new records outcome file hat =>
    exact h.of_at hat (fun howes => .inr ⟨_, _, _, at_move (s := s.store) .., howes⟩)
      (fun _ => .inl) (at_move (s := s.store) ..) id
  | @leave c base new records outcome phase hat hphase =>
    have hfits : OutcomeFits u (s.phase c) outcome := hI.holder _ _ _ _ hat
    refine h.of_at hat (fun howes => .inl ?_) (fun c' howes => .inl ?_) (procs_leave ..) id
    · -- the outcome is that of an exchange, and the manager is asked next
      rw [phase_go_self]
      cases outcome with
      | consumed raw username new =>
        rcases hphase with ⟨-, rfl⟩ | ⟨_, _, hphase, -⟩
        · rfl
        · exact absurd (hphase.symm.trans hfits.1) (by simp)
      | _ => exact absurd howes (by simp [owesAt, Position.spends, Outcome.spent])
    · have hne : c' ≠ c := by
        rintro rfl
        rcases hphase with ⟨hphase, -⟩ | ⟨_, _, hphase, -⟩ <;>
          rw [hphase] at howes <;> exact absurd howes (by simp [owesIn])
      rwa [phase_go_of_ne hne]

/-- A step of a thread that holds the lock and leaves the map alone, for the tokens of this
user that are still good. -/
theorem Untouched.of_proc (h : Untouched cfg calls u records₀ s) {records' : Records}
    {holder : Option (ℕ × Position)} {base' : ℕ}
    (hproc : s'.store.procs () = some ⟨records', holder, base'⟩)
    (hrecords : ∀ k record, records₀.lookup k = some record → record.username = u →
      s'.store.now < record.exp → records'.lookup k = some record)
    (hexamined : s'.examined = s.examined ∨ ∃ c raw time, calls c = some raw ∧
      s'.examined = Function.update s.examined c (some time) ∧
      ∀ record, records₀.lookup (cfg.sha256 raw) = some record → record.exp ≤ time) :
    Untouched cfg calls u records₀ s' := by
  refine ⟨fun proc' hproc' => ?_, fun c raw record time hcall hfound htime => ?_⟩
  · obtain rfl := Option.some.inj (hproc.symm.trans hproc')
    exact hrecords
  · rcases hexamined with heq | ⟨c', raw', time', hcall', heq, hexp⟩
    · rw [heq] at htime
      exact h.examined c raw record time hcall hfound htime
    · rw [heq] at htime
      rcases eq_or_ne c c' with rfl | hne
      · rw [Function.update_self] at htime
        obtain rfl := Option.some.inj htime
        obtain rfl := Option.some.inj (hcall.symm.trans hcall')
        exact hexp record hfound
      · rw [Function.update_of_ne hne] at htime
        exact h.examined c raw record time hcall hfound htime

/-- **As long as nothing is owed, nothing is touched.** -/
theorem Untouched.step (hI : Kept cfg calls u store₀ s)
    (hheld : ∀ c raw, calls c = some raw → TokenOf store₀ u raw)
    (hrecords₀ : Sound cfg store₀ records₀) (h : Untouched cfg calls u records₀ s)
    (hnot : ∀ c, ¬Owes s c) (hl : Step cfg calls issueSessionToken s l s') :
    Settled u s' ∨ Untouched cfg calls u records₀ s' := by
  -- the record that there was of the token of a call is one of the user
  have hu : ∀ {c : ℕ} {raw : Text} {record : Record}, calls c = some raw →
      records₀.lookup (cfg.sha256 raw) = some record → record.username = u := by
    intro c raw record hcall hfound
    obtain ⟨-, o, ho, husername⟩ := hheld c raw hcall
    obtain ⟨o', ho', hrecord⟩ := hrecords₀.lookup hfound
    obtain rfl := Option.some.inj (ho.symm.trans ho')
    rw [hrecord, husername]
  cases hl with
  | tick d =>
    refine .inr ⟨fun proc hproc k record hk husername hlt => ?_, h.examined⟩
    refine h.records proc hproc k record hk husername ?_
    have : s.store.now ≤ s.store.now + d := Int.le_add_of_nonneg_right (Int.natCast_nonneg d)
    exact this.trans_lt hlt
  | enter hphase hcall hup =>
    refine .inr (h.of_proc (at_move (s := s.store) ..) (fun k record hk husername hlt => ?_)
      (.inl rfl))
    exact Dict.lookup_keep_eq_some.mpr ⟨h.records _ hup k record hk husername hlt,
      decide_eq_true hlt⟩
  | @revoke c base new username exc records hphase hup =>
    exact absurd (.inl (by rw [hphase]; rfl)) (hnot c)
  | @answered c new new' username token hphase htoken =>
    exact absurd (.inl (by rw [hphase]; rfl)) (hnot c)
  | @refused c new new' username exc hphase hexc =>
    exact absurd (.inl (by rw [hphase]; rfl)) (hnot c)
  | @missed c base new raw records outcome hat houtcome hmiss =>
    have hcall := (hI.holder _ _ _ _ hat).2
    refine .inr (h.of_proc (at_move (s := s.store) ..) (h.records _ hat)
      (.inr ⟨c, raw, s.store.now, hcall, rfl, fun record hfound => ?_⟩))
    by_contra hlt
    have := h.records _ hat _ record hfound (hu hcall hfound) (by omega)
    exact absurd ((hmiss (hheld c raw hcall).1).symm.trans this) (by simp)
  | counted hat => exact absurd (hI.holder _ _ _ _ hat) id
  | @dropped c base new raw records record hat hfound hexp =>
    have hcall := (hI.holder _ _ _ _ hat).2
    refine .inr (h.of_proc (at_move (s := s.store) ..) (fun k record' hk husername hlt => ?_)
      (.inr ⟨c, raw, s.store.now, hcall, rfl, fun record' hfound' => ?_⟩))
    · have hk' := h.records _ hat k record' hk husername hlt
      rwa [AList.lookup_erase_ne]
      rintro rfl
      obtain rfl := Option.some.inj (hfound.symm.trans hk')
      exact absurd hexp (not_le.mpr hlt)
    · by_contra hlt
      have := h.records _ hat _ record' hfound' (hu hcall hfound') (by omega)
      obtain rfl := Option.some.inj (hfound.symm.trans this)
      exact hlt hexp
  | @accepted c base new raw records record hat hfound =>
    exact .inl (.inl ⟨c, .inr ⟨_, _, _, at_move (s := s.store) .., rfl⟩⟩)
  | @rotated c base new raw records record hat hnew =>
    exact absurd (.inr ⟨_, _, _, hat, rfl⟩) (hnot c)
  | @struck c base n new records username hat =>
    exact absurd (.inr ⟨_, _, _, hat, rfl⟩) (hnot c)
  | written hat | replaced hat =>
    exact .inr (h.of_proc (at_move (s := s.store) ..) (h.records _ hat) (.inl rfl))
  | leave hat hphase =>
    exact .inr (h.of_proc (procs_leave ..) (h.records _ hat) (.inl rfl))

/-- A call that there is not never begins. -/
theorem begun_step (h : ∀ c, calls c = none → s.phase c = .begun)
    (hl : Step cfg calls issueSessionToken s l s') : ∀ c, calls c = none → s'.phase c = .begun := by
  have hgo : ∀ {c : ℕ} {store : WebAuth.State Unit} {phase : Phase},
      (calls c ≠ none ∨ s.phase c ≠ .begun) →
      ∀ c', calls c' = none → (s.go c store phase).phase c' = .begun := by
    intro c store phase hc c' hc'
    have hne : c' ≠ c := by
      rintro rfl
      exact hc.elim (fun hcall => hcall hc') fun hphase => hphase (h c' hc')
    rw [phase_go_of_ne hne]
    exact h c' hc'
  cases hl with
  | enter hphase hcall hup => exact hgo (.inl (by rw [hcall]; simp))
  | revoke hphase hup | answered hphase | refused hphase =>
    exact hgo (.inr (by rw [hphase]; simp))
  | leave hat hphase =>
    refine hgo (.inr ?_)
    rcases hphase with ⟨hphase, -⟩ | ⟨_, _, hphase, -⟩ <;> rw [hphase] <;> simp
  | _ => exact h

/-- A call that is over owes nothing. -/
theorem not_owes_of_finished (hI : Kept cfg calls u store₀ s)
    (hbegun : ∀ c, calls c = none → s.phase c = .begun)
    (hdone : ∀ c raw, calls c = some raw → (s.phase c).finished) (c : ℕ) : ¬Owes s c := by
  have hphase : s.phase c = .begun ∨ (s.phase c).finished := by
    rcases hcall : calls c with _ | raw
    · exact .inl (hbegun c hcall)
    · exact .inr (hdone c raw hcall)
  rintro (howes | ⟨records, position, base, hat, -⟩)
  · rcases hphase with heq | hfinished
    · rw [heq] at howes
      exact absurd howes (by simp [owesIn])
    · generalize s.phase c = phase at howes hfinished
      cases phase <;> simp [owesIn, Phase.finished] at howes hfinished
  · rcases (hI.holder c records position base hat).phase with heq | ⟨exc, heq⟩ <;>
      rw [heq] at hphase <;> simp [Phase.finished] at hphase

/-! ### Every run -/

/-- What every run keeps. -/
structure Inv (cfg : Config) (calls : ℕ → Option Text) (u : String)
    (store₀ : WebAuth.State Unit) (records₀ : Records) (s : State) : Prop where
  kept : Kept cfg calls u store₀ s
  begun : ∀ c, calls c = none → s.phase c = .begun
  others : ∀ proc, s.store.procs () = some proc → Others u s.store.now records₀ proc.records
  debt : Settled u s ∨ Untouched cfg calls u records₀ s

variable {base : ℕ}

theorem inv_start (hknown : Known cfg store₀)
    (hidle : store₀.procs () = some ⟨records₀, none, base⟩) :
    Inv cfg calls u store₀ records₀ (start store₀) := by
  have hone : ∀ proc, store₀.procs () = some proc → proc = ⟨records₀, none, base⟩ :=
    fun proc hproc => (Option.some.inj (hidle.symm.trans hproc)).symm
  refine ⟨⟨hknown, fun _ _ => id, ⟨_, hidle⟩, fun _ => trivial, fun c _ _ _ hat => ?_⟩,
    fun _ _ => rfl, fun proc hproc => ?_, .inr ⟨fun proc hproc => ?_, fun _ _ _ _ _ _ h => ?_⟩⟩
  · exact absurd (hidle.symm.trans hat) (by simp)
  · obtain rfl := hone proc hproc
    exact fun _ _ _ _ => Iff.rfl
  · obtain rfl := hone proc hproc
    exact fun _ _ hk _ _ => hk
  · exact absurd h (by simp [start])

theorem Inv.step (hI : Inv cfg calls u store₀ records₀ s)
    (hrefuses : ∀ token, issueSessionToken u ≠ .ok token)
    (hheld : ∀ c raw, calls c = some raw → TokenOf store₀ u raw)
    (hrecords₀ : Sound cfg store₀ records₀)
    (hl : Refresh.step cfg calls issueSessionToken s l = some s') :
    Inv cfg calls u store₀ records₀ s' := by
  have hstep := Step.of_step hl
  refine ⟨hI.kept.step hrefuses hheld hl, begun_step hI.begun hstep,
    Others.step hI.kept hheld hI.others hstep, ?_⟩
  by_cases hsettled : Settled u s
  · exact .inl (hsettled.step hI.kept hrefuses hstep)
  · exact (hI.debt.resolve_left hsettled).step hI.kept hheld hrecords₀
      (fun c howes => hsettled (.inl ⟨c, howes⟩)) hstep

/-- **A refused refresh fails closed.** While the manager refuses a user, in every
interleaving of refreshes that hold tokens of that user: no call returns a session or a new
token; the tokens of other users are good exactly as long as they would have been; and when
all calls are over, no token of the user is accepted, as soon as one of them had its token
examined before that expired. -/
theorem failsClosed {ls₀ : List (WebAuth.Label Unit)}
    (h₀ : Lts.Run (Lts.ofStep (WebAuth.step cfg)) WebAuth.State.init ls₀ store₀)
    (hidle : store₀.procs () = some ⟨records₀, none, base⟩)
    (hrefuses : ∀ token, issueSessionToken u ≠ .ok token)
    (hheld : ∀ c raw, calls c = some raw → TokenOf store₀ u raw) {ls : List Label}
    (h : Lts.Run (Lts.ofStep (step cfg calls issueSessionToken)) (start store₀) ls s) :
    (∀ c token new, s.phase c ≠ .returned token new) ∧
    (∀ raw o, store₀.origin raw = some o → o.username ≠ u →
      (Accepts cfg s.store () raw ↔ Live cfg s.store records₀ raw)) ∧
    ((∀ c raw, calls c = some raw → (s.phase c).finished) →
      (∃ c raw record time, calls c = some raw ∧
        records₀.lookup (cfg.sha256 raw) = some record ∧ s.examined c = some time ∧
        time < record.exp) →
      ∀ raw o, s.store.origin raw = some o → o.username = u → ¬Accepts cfg s.store () raw) := by
  have hknown₀ : Known cfg store₀ := by
    refine h₀.inv_state (I := fun s => Known cfg s) known_init ?_
    exact fun a l b hK hl => hK.step (WebAuth.Step.of_step hl)
  have hsound₀ : Sound cfg store₀ records₀ := (hknown₀.procs _ _ hidle).sound
  have hI : Inv cfg calls u store₀ records₀ s := by
    refine h.inv_state (I := fun s => Inv cfg calls u store₀ records₀ s)
      (inv_start hknown₀ hidle) ?_
    exact fun a l b hI hl => hI.step hrefuses hheld hsound₀ hl
  refine ⟨fun c token new hphase => ?_, fun raw o ho hne => ?_, ?_⟩
  · exact hI.kept.ofUser hphase
  · have hsame : ∀ proc, s.store.procs () = some proc → ∀ record,
        (proc.records.lookup (cfg.sha256 raw) = some record ∨
          records₀.lookup (cfg.sha256 raw) = some record) → record.username ≠ u := by
      rintro proc hproc record (hfound | hfound)
      · obtain ⟨o', ho', hrecord⟩ := (hI.kept.known.procs _ _ hproc).sound.lookup hfound
        obtain rfl := Option.some.inj ((hI.kept.origin raw o ho).symm.trans ho')
        rwa [hrecord]
      · obtain ⟨o', ho', hrecord⟩ := hsound₀.lookup hfound
        obtain rfl := Option.some.inj (ho.symm.trans ho')
        rwa [hrecord]
    constructor
    · rintro ⟨proc, hproc, record, hfound, hlt⟩
      exact ⟨record, (hI.others proc hproc _ record (hsame proc hproc record (.inl hfound))
        hlt).mp hfound, hlt⟩
    · rintro ⟨record, hfound, hlt⟩
      obtain ⟨proc, hproc⟩ := hI.kept.up
      exact ⟨proc, hproc, record, (hI.others proc hproc _ record
        (hsame proc hproc record (.inr hfound)) hlt).mpr hfound, hlt⟩
  · rintro hdone ⟨c, raw, record, time, hcall, hfound, htime, hlt⟩ raw' o ho hu
    have hsettled : Settled u s := by
      refine hI.debt.resolve_right fun huntouched => ?_
      have := huntouched.examined c raw record time hcall hfound htime
      omega
    rcases hsettled with ⟨c', howes⟩ | hnone
    · exact absurd howes (not_owes_of_finished hI.kept hI.begun hdone c')
    · rintro ⟨proc, hproc, record', hfound', -⟩
      obtain ⟨o', ho', hrecord⟩ := (hI.kept.known.procs _ _ hproc).sound.lookup hfound'
      obtain rfl := Option.some.inj (ho.symm.trans ho')
      exact hnone proc hproc _ record' hfound' (by rw [hrecord, hu])

/-! ### Two runs -/

/-- A manager that has no users. -/
def noUsers (_ : String) : Except String String := .error "user not found"

/-- Two tokens are given out to one user, a while apart, and one to another. -/
def handedOut : List (WebAuth.Label Unit) :=
  issuing () "ada" [1] ++ [.tick 5, .enter () 0 (.issue "ada"), .draw () 0 [2]] ++ saved () ++
    [.enter () 0 (.issue "grace"), .draw () 0 [3]] ++ saved ()

/-- The calls present these tokens, in this order. -/
def presenting (tokens : List Text) (c : ℕ) : Option Text := tokens[c]?

/-- What a store has after `handedOut`: the lock is free, and there are these tokens. -/
def Ready (store : WebAuth.State Unit) : Prop :=
  (store.procs ()).any (fun proc => decide (proc.holder = none ∧
    proc.records.lookup [1] = some ⟨"ada", 1209600⟩ ∧
    proc.records.lookup [3] = some ⟨"grace", 1209605⟩)) ∧
  store.now = 5 ∧
  (store.origin [1]).map Origin.username = some "ada" ∧
  (store.origin [2]).map Origin.username = some "ada" ∧
  (store.origin [3]).map Origin.username = some "grace"

instance : DecidablePred Ready := fun _ => inferInstanceAs (Decidable (_ ∧ _))

theorem tokenOf_of_origin {store : WebAuth.State Unit} {raw : Text} (henc : Encodable raw)
    (h : (store.origin raw).map Origin.username = some u) : TokenOf store u raw := by
  obtain ⟨o, ho, husername⟩ := Option.map_eq_some_iff.mp h
  exact ⟨henc, o, ho, husername⟩

/-- Two refreshes of one user that overlap: the second puts its new token into the map
while the first is being refused. -/
def overlapping : List Label :=
  List.replicate 6 (.move 0 [4]) ++ List.replicate 6 (.move 1 [5]) ++
    List.replicate 6 (.move 0 []) ++ List.replicate 4 (.move 1 [])

theorem failsClosed_overlapping : ∃ s : State,
    s.phase 0 = .failed (.refused "ada" "user not found") ∧
    s.phase 1 = .failed (.refused "ada" "user not found") ∧
    ¬Accepts plainConfig s.store () [5] ∧ Accepts plainConfig s.store () [3] := by
  obtain ⟨store₀, hrun₀, htest⟩ := Lts.exists_run_of_exec (WebAuth.step plainConfig)
    WebAuth.State.init handedOut (fun store => Ready store ∧
      (Lts.exec (step plainConfig (presenting [[1], [2]]) noUsers) (start store)
        overlapping).any fun s =>
          s.phase 0 = .failed (.refused "ada" "user not found") ∧
          s.phase 1 = .failed (.refused "ada" "user not found") ∧ s.examined 0 = some 5 ∧
          s.store.now = 5 ∧ (s.store.origin [5]).map Origin.username = some "ada")
    (by decide +kernel)
  obtain ⟨⟨hproc, -, h1, h2, h3⟩, hexec⟩ := of_decide_eq_true htest
  obtain ⟨s, hrun, hs⟩ := Lts.exists_run_of_exec _ _ _ _ hexec
  obtain ⟨hphase0, hphase1, hexamined, hnow, h5⟩ := of_decide_eq_true hs
  obtain ⟨⟨records, holder, base⟩, hidle, hrecords⟩ := (Option.any_eq_true ..).mp hproc
  obtain ⟨rfl, hada, hgrace⟩ := of_decide_eq_true hrecords
  have hheld : ∀ c raw, presenting [[1], [2]] c = some raw → TokenOf store₀ "ada" raw := by
    intro c raw hcall
    rcases c with _ | _ | c
    · obtain rfl := Option.some.inj hcall
      exact tokenOf_of_origin (by decide) h1
    · obtain rfl := Option.some.inj hcall
      exact tokenOf_of_origin (by decide) h2
    · exact absurd hcall (by simp [presenting])
  obtain ⟨-, hothers, hgone⟩ := failsClosed hrun₀ hidle (fun _ => by simp [noUsers]) hheld hrun
  obtain ⟨o, ho, husername⟩ := Option.map_eq_some_iff.mp h5
  obtain ⟨o', ho', husername'⟩ := Option.map_eq_some_iff.mp h3
  refine ⟨s, hphase0, hphase1, ?_, ?_⟩
  · refine hgone ?_ ⟨0, [1], ⟨"ada", 1209600⟩, 5, rfl, hada, hexamined, by simp⟩ _ o ho husername
    intro c raw hcall
    rcases c with _ | _ | c
    · rw [hphase0]
      rfl
    · rw [hphase1]
      rfl
    · exact absurd hcall (by simp [presenting])
  · refine (hothers [3] o' ho' (by rw [husername']; simp)).mpr ⟨_, hgrace, ?_⟩
    rw [hnow]
    simp

/-- **A token that expires on the way**: the store refuses the refresh, the manager is not
asked, and the user keeps another token, although the token was good when the call began. -/
theorem not_failsClosed : ¬∀ (cfg : Config) (calls : ℕ → Option Text)
    (issueSessionToken : String → Except String String) (u : String)
    (store₀ : WebAuth.State Unit) (ls₀ : List (WebAuth.Label Unit)) (ls : List Label) (s : State),
    Lts.Run (Lts.ofStep (WebAuth.step cfg)) WebAuth.State.init ls₀ store₀ →
    (∃ records base, store₀.procs () = some ⟨records, none, base⟩) →
    (∀ token, issueSessionToken u ≠ .ok token) →
    (∀ c raw, calls c = some raw → TokenOf store₀ u raw ∧ Accepts cfg store₀ () raw) →
    Lts.Run (Lts.ofStep (step cfg calls issueSessionToken)) (start store₀) ls s →
    (∀ c raw, calls c = some raw → (s.phase c).finished) →
    ∀ raw o, s.store.origin raw = some o → o.username = u → ¬Accepts cfg s.store () raw := by
  intro h
  obtain ⟨store₀, hrun₀, htest⟩ := Lts.exists_run_of_exec (WebAuth.step plainConfig)
    WebAuth.State.init handedOut (fun store => Ready store ∧
      (Lts.exec (step plainConfig (presenting [[1]]) noUsers) (start store)
        (.tick 1209597 :: List.replicate 3 (.move 0 []))).any fun s =>
          s.phase 0 = .failed .unknown ∧ s.store.now = 1209602 ∧
          (s.store.origin [2]).map Origin.username = some "ada" ∧
          (s.store.procs ()).any fun proc =>
            proc.records.lookup [2] = some ⟨"ada", 1209605⟩)
    (by decide +kernel)
  obtain ⟨⟨hproc, hnow₀, h1, -, -⟩, hexec⟩ := of_decide_eq_true htest
  obtain ⟨s, hrun, hs⟩ := Lts.exists_run_of_exec _ _ _ _ hexec
  obtain ⟨hphase, hnow, h2, hproc'⟩ := of_decide_eq_true hs
  obtain ⟨⟨records, holder, base⟩, hidle, hrecords⟩ := (Option.any_eq_true ..).mp hproc
  obtain ⟨rfl, hada, -⟩ := of_decide_eq_true hrecords
  obtain ⟨proc', hidle', hada'⟩ := (Option.any_eq_true ..).mp hproc'
  obtain ⟨o, ho, husername⟩ := Option.map_eq_some_iff.mp h2
  refine h plainConfig (presenting [[1]]) noUsers "ada" store₀ _ _ s hrun₀ ⟨_, _, hidle⟩
    (fun _ => by simp [noUsers]) ?_ hrun ?_ [2] o ho husername
    ⟨proc', hidle', _, of_decide_eq_true hada', by rw [hnow]; simp⟩
  · intro c raw hcall
    rcases c with _ | c
    · obtain rfl := Option.some.inj hcall
      exact ⟨tokenOf_of_origin (by decide) h1, _, hidle, _, hada, by rw [hnow₀]; simp⟩
    · exact absurd hcall (by simp [presenting])
  · intro c raw hcall
    rcases c with _ | c
    · rw [hphase]
      rfl
    · exact absurd hcall (by simp [presenting])

end Refresh

end WebAuth

end OtamanBridge
