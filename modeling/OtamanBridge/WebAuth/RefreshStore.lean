import OtamanBridge.Inbox.Store
import OtamanBridge.Lib.Dict
import OtamanBridge.Lib.Run

/-!
# The store of refresh tokens

`RefreshTokenStore` of `ce_web_auth.py`, in any number of daemon processes that keep it in
the same file. A process has its own map, and a lock that one of its threads may hold; a
call changes the map first and writes the file afterwards. So a step is what happens
between two points where something else may come in between: another process, the clock,
an exception or the end of the process. A save writes the whole map next to the file and
moves it into place.

The file is taken after `json.loads`. What nothing in the program reads is history: which
login a token descends from, when the file was saved, and the log of what happened.
-/

namespace OtamanBridge

namespace WebAuth

open Py

open Inbox (Encodable)

/-! ### What is stored -/

/-- `_Record`. -/
structure Record where
  username : String
  exp : ℤ
  deriving DecidableEq

/-- `_records`, by the hash of the token. -/
abbrev Records := AList fun _ : Text => Record

/-- The lifetime of a token, and `sha256`, which no two tokens share. -/
structure Config where
  ttl : ℤ
  sha256 : Text ↪ Text

/-- `DEFAULT_REFRESH_TTL`. -/
def defaultRefreshTtl : ℤ := 14 * 24 * 3600

/-- What a file holds: the records, or what is no JSON object. -/
inductive File
  | torn
  | records (records : Records)

/-- A call of the store. -/
inductive Call
  | issue (username : String)
  | consume (raw : Text)
  | revoke (username : String)
  | count
  deriving DecidableEq

/-- What a call comes to. -/
inductive Outcome
  /-- The new token. -/
  | issued (username : String) (raw : Text)
  /-- The user name and the new token, in exchange for the old one. -/
  | consumed (raw : Text) (username : String) (new : Text)
  /-- `RefreshError`: unknown, or used already. -/
  | unknown
  /-- `RefreshError`: expired. -/
  | expired
  | revoked (username : String) (n : ℕ)
  | counted (n : ℕ)
  /-- Another exception. -/
  | raised
  deriving DecidableEq

/-- Where the thread that holds the lock stands. -/
inductive Position
  /-- The lock is taken, and what is expired is dropped where the call begins with that. -/
  | entered (call : Call)
  /-- In `consume_and_rotate`, between the two tokens. -/
  | taken (raw : Text) (record : Record)
  /-- In `_save`, before the file next to the store is written. -/
  | saving (outcome : Outcome)
  /-- In `_save`, before `os.replace`. -/
  | replacing (outcome : Outcome)
  /-- The lock is to be released. -/
  | leaving (outcome : Outcome)
  deriving DecidableEq

/-- A daemon process. -/
structure Proc where
  records : Records
  /-- The thread that holds `_lock`. -/
  holder : Option (ℕ × Position)
  /-- How often the file had been saved when this process last loaded or saved it. -/
  base : ℕ

/-- What is known of a token: the first token of its login, the user that login was for,
and its expiry. -/
structure Origin where
  login : Text
  username : String
  exp : ℤ

/-- What has happened, in which process. -/
inductive Event (D : Type)
  /-- The token was put into the map, for this user. -/
  | minted (p : D) (raw : Text) (username : String)
  /-- The token was accepted, at this time. -/
  | accepted (p : D) (raw : Text) (time : ℤ)
  /-- The file was saved, in a call that comes to this. -/
  | saved (p : D) (outcome : Outcome)
  /-- A call returned, or raised. -/
  | returned (p : D) (t : ℕ) (outcome : Outcome)
  deriving DecidableEq

/-- The state of the processes and their directory. -/
structure State (D : Type) where
  now : ℤ
  /-- `ce_refresh_tokens.json`. -/
  file : Option File
  /-- `ce_refresh_tokens.json.tmp`. -/
  tmp : Option File
  procs : D → Option Proc
  /-- How often the file was saved. -/
  version : ℕ
  origin : Text → Option Origin
  log : List (Event D)

/-! ### The operations on the map -/

/-- `_prune`. -/
def prune (now : ℤ) (records : Records) : Records := Dict.keep (now < ·.exp) records

/-- `_load`: a file that is missing, or cannot be read, is an empty map. -/
def load (now : ℤ) (readable : Bool) : Option File → Records
  | some (.records records) => if readable then prune now records else ∅
  | _ => ∅

/-- The records of `username`: the victims of `revoke_user`. -/
def victims (username : String) (records : Records) : Records :=
  Dict.keep (fun r => r.username = username) records

/-- What `revoke_user` leaves. -/
def withoutUser (username : String) (records : Records) : Records :=
  Dict.keep (fun r => r.username ≠ username) records

/-- The calls that begin with `_prune`. -/
def Call.prunes : Call → Bool
  | .revoke _ => false
  | _ => true

/-! ### Steps -/

variable {D : Type} [DecidableEq D]

namespace State

/-- Nothing is stored and nothing runs. -/
def init : State D where
  now := 0
  file := none
  tmp := none
  procs := fun _ => none
  version := 0
  origin := fun _ => none
  log := []

variable (s : State D) (p : D)

/-- Write a process. -/
def setProc (proc : Option Proc) : State D :=
  { s with procs := Function.update s.procs p proc }

/-- Write a running process. -/
def move (t : ℕ) (records : Records) (position : Position) (base : ℕ) : State D :=
  s.setProc p (some ⟨records, some (t, position), base⟩)

/-- Note what happened. -/
def note (e : Event D) : State D := { s with log := e :: s.log }

/-- A token is made: its record is in the map, and the save is next. -/
def mint (cfg : Config) (t : ℕ) (records : Records) (base : ℕ) (raw : Text) (username : String)
    (origin : Option Origin) (outcome : Outcome) : State D :=
  { (s.move p t (records.insert (cfg.sha256 raw) ⟨username, s.now + cfg.ttl⟩) (.saving outcome)
      base).note (.minted p raw username) with origin := Function.update s.origin raw origin }

end State

@[simp] theorem State.mint_origin_self (s : State D) (p : D) (cfg : Config) (t : ℕ)
    (records : Records) (base : ℕ) (raw : Text) (username : String) (origin : Option Origin)
    (outcome : Outcome) :
    (s.mint p cfg t records base raw username origin outcome).origin raw = origin :=
  Function.update_self ..

/-- What a step is told: who moves, and what the environment answers. -/
inductive Label (D : Type)
  /-- Time passes. -/
  | tick (d : ℕ)
  /-- A process starts; the file can be read or not. -/
  | start (p : D) (readable : Bool)
  | crash (p : D)
  /-- A thread takes the lock. -/
  | enter (p : D) (t : ℕ) (call : Call)
  /-- What the call does to the map, as far as it needs no new token. -/
  | act (p : D) (t : ℕ)
  /-- `secrets.token_urlsafe` answers, and the new token is put into the map. -/
  | draw (p : D) (t : ℕ) (raw : Text)
  /-- The file next to the store is written. -/
  | write (p : D) (t : ℕ)
  /-- Writing it raises. -/
  | tear (p : D) (t : ℕ)
  /-- `os.replace`. -/
  | replace (p : D) (t : ℕ)
  /-- A step of `_save` raises, and touches no file. -/
  | fail (p : D) (t : ℕ)
  /-- The lock is released. -/
  | leave (p : D) (t : ℕ)

/-- What a call does to the map before it needs a new token. -/
def act (cfg : Config) (s : State D) (p : D) (t : ℕ) (records : Records) (base : ℕ) :
    Call → Option (State D)
  | .issue _ => none
  | .consume raw =>
    if Encodable raw then
      match records.lookup (cfg.sha256 raw) with
      | none => some (s.move p t records (.leaving .unknown) base)
      | some record =>
        let rest := records.erase (cfg.sha256 raw)
        if record.exp ≤ s.now then some (s.move p t rest (.saving .expired) base)
        else some ((s.move p t rest (.taken raw record) base).note (.accepted p raw s.now))
    else some (s.move p t records (.leaving .raised) base)
  | .revoke username =>
    let n := (victims username records).entries.length
    let outcome := Outcome.revoked username n
    some (s.move p t (withoutUser username records)
      (if n = 0 then .leaving outcome else .saving outcome) base)
  | .count => some (s.move p t records (.leaving (.counted records.entries.length)) base)

/-- A new token is put into the map. -/
def draw (cfg : Config) (s : State D) (p : D) (t : ℕ) (records : Records) (base : ℕ)
    (new : Text) : Position → Option (State D)
  | .entered (.issue username) =>
    some (s.mint p cfg t records base new username (some ⟨new, username, s.now + cfg.ttl⟩)
      (.issued username new))
  | .taken raw record =>
    some (s.mint p cfg t records base new record.username
      ((s.origin raw).map fun o => ⟨o.login, o.username, s.now + cfg.ttl⟩)
      (.consumed raw record.username new))
  | _ => none

/-- One step. -/
def step (cfg : Config) (s : State D) : Label D → Option (State D)
  | .tick d => some { s with now := s.now + d }
  | .start p readable =>
    match s.procs p with
    | some _ => none
    | none => some (s.setProc p (some ⟨load s.now readable s.file, none, s.version⟩))
  | .crash p =>
    match s.procs p with
    | some _ => some (s.setProc p none)
    | none => none
  | .enter p t call =>
    match s.procs p with
    | some ⟨records, none, base⟩ =>
      some (s.move p t (if call.prunes then prune s.now records else records) (.entered call)
        base)
    | _ => none
  | .act p t =>
    match s.procs p with
    | some ⟨records, some (t', .entered call), base⟩ =>
      if t' = t then act cfg s p t records base call else none
    | _ => none
  | .draw p t raw =>
    match s.procs p with
    | some ⟨records, some (t', position), base⟩ =>
      if t' = t ∧ (s.origin raw).isNone then draw cfg s p t records base raw position else none
    | _ => none
  | .write p t =>
    match s.procs p with
    | some ⟨records, some (t', .saving outcome), base⟩ =>
      if t' = t then
        some { s.move p t records (.replacing outcome) base with tmp := some (.records records) }
      else none
    | _ => none
  | .tear p t =>
    match s.procs p with
    | some ⟨records, some (t', .saving _), base⟩ =>
      if t' = t then
        some { s.move p t records (.leaving .raised) base with tmp := some .torn }
      else none
    | _ => none
  | .replace p t =>
    match s.procs p, s.tmp with
    | some ⟨records, some (t', .replacing outcome), _⟩, some file =>
      if t' = t then
        some { (s.move p t records (.leaving outcome) (s.version + 1)).note (.saved p outcome) with
          file := some file, tmp := none, version := s.version + 1 }
      else none
    | _, _ => none
  | .fail p t =>
    match s.procs p with
    | some ⟨records, some (t', .saving _), base⟩ =>
      if t' = t then some (s.move p t records (.leaving .raised) base) else none
    | some ⟨records, some (t', .replacing _), base⟩ =>
      if t' = t then some (s.move p t records (.leaving .raised) base) else none
    | _ => none
  | .leave p t =>
    match s.procs p with
    | some ⟨records, some (t', .leaving outcome), base⟩ =>
      if t' = t then
        some ((s.setProc p (some ⟨records, none, base⟩)).note (.returned p t outcome))
      else none
    | _ => none

/-! ### What a step can do -/

/-- The outcome a call has come to. -/
def Position.outcome : Position → Option Outcome
  | .saving o => some o
  | .replacing o => some o
  | .leaving o => some o
  | _ => none

/-- A call that leaves the map alone and saves nothing. -/
def Outcome.quiet : Outcome → Bool
  | .unknown => true
  | .counted _ => true
  | .raised => true
  | _ => false

variable {cfg : Config} {s s' : State D} {p : D} {t base : ℕ} {records : Records}
  {position : Position}

/-- The thread `t` of the process `p` holds the lock, and stands there. -/
def State.At (s : State D) (p : D) (t : ℕ) (records : Records) (position : Position)
    (base : ℕ) : Prop :=
  s.procs p = some ⟨records, some (t, position), base⟩

/-- The steps, by what they do. -/
inductive Step (cfg : Config) (s : State D) : Label D → State D → Prop
  | tick (d : ℕ) : Step cfg s (.tick d) { s with now := s.now + d }
  | start {p : D} (readable : Bool) (hdown : s.procs p = none) :
      Step cfg s (.start p readable)
        (s.setProc p (some ⟨load s.now readable s.file, none, s.version⟩))
  | crash {p : D} {proc : Proc} (hup : s.procs p = some proc) :
      Step cfg s (.crash p) (s.setProc p none)
  | enter {p : D} {t base : ℕ} {records : Records} (call : Call)
      (hup : s.procs p = some ⟨records, none, base⟩) :
      Step cfg s (.enter p t call)
        (s.move p t (if call.prunes then prune s.now records else records) (.entered call) base)
  | pass {p : D} {t base : ℕ} {records : Records} {call : Call} {outcome : Outcome}
      (hat : s.At p t records (.entered call) base) (hquiet : outcome.quiet) :
      Step cfg s (.act p t) (s.move p t records (.leaving outcome) base)
  | drop {p : D} {t base : ℕ} {records : Records} {raw : Text}
      (hat : s.At p t records (.entered (.consume raw)) base) {record : Record}
      (hfound : records.lookup (cfg.sha256 raw) = some record) (hexp : record.exp ≤ s.now) :
      Step cfg s (.act p t)
        (s.move p t (records.erase (cfg.sha256 raw)) (.saving .expired) base)
  | accept {p : D} {t base : ℕ} {records : Records} {raw : Text}
      (hat : s.At p t records (.entered (.consume raw)) base) {record : Record}
      (hfound : records.lookup (cfg.sha256 raw) = some record) (hlive : s.now < record.exp) :
      Step cfg s (.act p t)
        ((s.move p t (records.erase (cfg.sha256 raw)) (.taken raw record) base).note
          (.accepted p raw s.now))
  | strike {p : D} {t base n : ℕ} {records : Records} {username : String}
      (hat : s.At p t records (.entered (.revoke username)) base)
      (hn : n = (victims username records).entries.length) :
      Step cfg s (.act p t)
        (s.move p t (withoutUser username records)
          (if n = 0 then .leaving (.revoked username n) else .saving (.revoked username n)) base)
  | issue {p : D} {t base : ℕ} {records : Records} {username : String} {new : Text}
      (hat : s.At p t records (.entered (.issue username)) base) (hnew : s.origin new = none) :
      Step cfg s (.draw p t new)
        (s.mint p cfg t records base new username (some ⟨new, username, s.now + cfg.ttl⟩)
          (.issued username new))
  | rotate {p : D} {t base : ℕ} {records : Records} {raw new : Text} {record : Record}
      (hat : s.At p t records (.taken raw record) base) (hnew : s.origin new = none) :
      Step cfg s (.draw p t new)
        (s.mint p cfg t records base new record.username
          ((s.origin raw).map fun o => ⟨o.login, o.username, s.now + cfg.ttl⟩)
          (.consumed raw record.username new))
  | write {p : D} {t base : ℕ} {records : Records} {outcome : Outcome}
      (hat : s.At p t records (.saving outcome) base) :
      Step cfg s (.write p t)
        { s.move p t records (.replacing outcome) base with tmp := some (.records records) }
  | tear {p : D} {t base : ℕ} {records : Records} {outcome : Outcome}
      (hat : s.At p t records (.saving outcome) base) :
      Step cfg s (.tear p t) { s.move p t records (.leaving .raised) base with tmp := some .torn }
  | replace {p : D} {t base : ℕ} {records : Records} {outcome : Outcome} {file : File}
      (hat : s.At p t records (.replacing outcome) base) (htmp : s.tmp = some file) :
      Step cfg s (.replace p t)
        { (s.move p t records (.leaving outcome) (s.version + 1)).note (.saved p outcome) with
          file := some file, tmp := none, version := s.version + 1 }
  | fail {p : D} {t base : ℕ} {records : Records} {position : Position}
      (hat : s.At p t records position base) {outcome : Outcome}
      (hposition : position = .saving outcome ∨ position = .replacing outcome) :
      Step cfg s (.fail p t) (s.move p t records (.leaving .raised) base)
  | leave {p : D} {t base : ℕ} {records : Records} {outcome : Outcome}
      (hat : s.At p t records (.leaving outcome) base) :
      Step cfg s (.leave p t)
        ((s.setProc p (some ⟨records, none, base⟩)).note (.returned p t outcome))

theorem Step.of_act {call : Call} (hat : s.At p t records (.entered call) base)
    (h : act cfg s p t records base call = some s') : Step cfg s (.act p t) s' := by
  unfold act at h
  split at h
  · exact absurd h (by simp)
  next raw =>
    split_ifs at h with hencodable
    · split at h
      · obtain rfl := Option.some.inj h
        exact .pass hat rfl
      next record hfound =>
        dsimp only at h
        split_ifs at h with hexp
        · obtain rfl := Option.some.inj h
          exact .drop hat hfound hexp
        · obtain rfl := Option.some.inj h
          exact .accept hat hfound (by omega)
    · obtain rfl := Option.some.inj h
      exact .pass hat rfl
  · obtain rfl := Option.some.inj h
    exact .strike hat rfl
  · obtain rfl := Option.some.inj h
    exact .pass hat rfl

/-- **Every step is one of these.** -/
theorem Step.of_step {l : Label D} (h : step cfg s l = some s') : Step cfg s l s' := by
  unfold step at h
  split at h
  · obtain rfl := Option.some.inj h
    exact .tick _
  · split at h
    · exact absurd h (by simp)
    next hdown =>
      obtain rfl := Option.some.inj h
      exact .start _ hdown
  · split at h
    next hup =>
      obtain rfl := Option.some.inj h
      exact .crash hup
    · exact absurd h (by simp)
  · split at h
    next hup =>
      obtain rfl := Option.some.inj h
      exact .enter _ hup
    · exact absurd h (by simp)
  · split at h
    next hat =>
      split_ifs at h with ht
      subst ht
      exact .of_act hat h
    · exact absurd h (by simp)
  · split at h
    next hat =>
      split_ifs at h with ht
      obtain ⟨rfl, hnew⟩ := ht
      rw [Option.isNone_iff_eq_none] at hnew
      unfold draw at h
      split at h
      · obtain rfl := Option.some.inj h
        exact .issue hat hnew
      · obtain rfl := Option.some.inj h
        exact .rotate hat hnew
      · exact absurd h (by simp)
    · exact absurd h (by simp)
  · split at h
    next hat =>
      split_ifs at h with ht
      subst ht
      obtain rfl := Option.some.inj h
      exact .write hat
    · exact absurd h (by simp)
  · split at h
    next hat =>
      split_ifs at h with ht
      subst ht
      obtain rfl := Option.some.inj h
      exact .tear hat
    · exact absurd h (by simp)
  · split at h
    next hat htmp =>
      split_ifs at h with ht
      subst ht
      obtain rfl := Option.some.inj h
      exact .replace hat htmp
    · exact absurd h (by simp)
  · split at h
    next hat =>
      split_ifs at h with ht
      subst ht
      obtain rfl := Option.some.inj h
      exact .fail hat (.inl rfl)
    next hat =>
      split_ifs at h with ht
      subst ht
      obtain rfl := Option.some.inj h
      exact .fail hat (.inr rfl)
    · exact absurd h (by simp)
  · split at h
    next hat =>
      split_ifs at h with ht
      subst ht
      obtain rfl := Option.some.inj h
      exact .leave hat
    · exact absurd h (by simp)

/-! ### What every run keeps

Whatever the processes do to each other, a record is that of a token that was made, and a
token is exchanged for one of the same user. -/

/-- The state after a step keeps what is known of the tokens, and time does not go back. -/
theorem Step.origin {l : Label D} (h : Step cfg s l s') {raw : Text} {o : Origin}
    (ho : s.origin raw = some o) : s'.origin raw = some o := by
  cases h with
  | issue hat hnew | rotate hat hnew =>
    refine (Function.update_of_ne ?_ ..).trans ho
    rintro rfl
    exact absurd (ho.symm.trans hnew) (by simp)
  | _ => exact ho

theorem Step.now_le {l : Label D} (h : Step cfg s l s') : s.now ≤ s'.now := by
  cases h with
  | tick d => exact Int.le_add_of_nonneg_right (Int.natCast_nonneg d)
  | _ => exact le_refl _

/-- The records are those of tokens that were made. -/
def Sound (cfg : Config) (s : State D) (records : Records) : Prop :=
  ∀ k record, records.lookup k = some record →
    ∃ raw o, k = cfg.sha256 raw ∧ s.origin raw = some o ∧ record = ⟨o.username, o.exp⟩

theorem Sound.mono {l : Label D} (h : Sound cfg s records) (hstep : Step cfg s l s') :
    Sound cfg s' records := by
  intro k record hk
  obtain ⟨raw, o, hraw, ho, hrecord⟩ := h k record hk
  exact ⟨raw, o, hraw, hstep.origin ho, hrecord⟩

omit [DecidableEq D] in
theorem Sound.keep (h : Sound cfg s records) (f : Record → Bool) :
    Sound cfg s (Dict.keep f records) :=
  fun k record hk => h k record (Dict.lookup_keep_eq_some.mp hk).1

omit [DecidableEq D] in
theorem Sound.erase (h : Sound cfg s records) (k : Text) : Sound cfg s (records.erase k) :=
  fun _ _ hk => h _ _ (Dict.lookup_of_erase hk)

omit [DecidableEq D] in
/-- The record of a token that was made. -/
theorem Sound.lookup (h : Sound cfg s records) {raw : Text} {record : Record}
    (hfound : records.lookup (cfg.sha256 raw) = some record) :
    ∃ o, s.origin raw = some o ∧ record = ⟨o.username, o.exp⟩ := by
  obtain ⟨raw', o, hraw, ho, hrecord⟩ := h _ _ hfound
  rw [cfg.sha256.injective hraw]
  exact ⟨o, ho, hrecord⟩

/-- A token that is exchanged is one of this user. -/
def Outcome.Known (s : State D) (outcome : Outcome) : Prop :=
  ∀ raw username new, outcome = .consumed raw username new →
    ∃ o, s.origin raw = some o ∧ o.username = username

/-- What is known of a process. -/
structure Proc.Known (cfg : Config) (s : State D) (proc : Proc) : Prop where
  sound : Sound cfg s proc.records
  taken : ∀ t raw record, proc.holder = some (t, .taken raw record) →
    ∃ o, s.origin raw = some o ∧ o.username = record.username
  outcome : ∀ t position o, proc.holder = some (t, position) → position.outcome = some o →
    o.Known s

/-- What is known of an event. -/
def Event.Known (s : State D) : Event D → Prop
  | .minted _ raw username => ∃ o, s.origin raw = some o ∧ o.username = username
  | .accepted _ raw time => ∃ o, s.origin raw = some o ∧ time < o.exp
  | .saved _ _ => True
  | .returned _ _ outcome => outcome.Known s

/-- **What every run keeps.** -/
structure Known (cfg : Config) (s : State D) : Prop where
  procs : ∀ p proc, s.procs p = some proc → proc.Known cfg s
  file : ∀ records, s.file = some (.records records) → Sound cfg s records
  tmp : ∀ records, s.tmp = some (.records records) → Sound cfg s records
  log : ∀ e ∈ s.log, e.Known s

theorem Outcome.Known.mono {l : Label D} {o : Outcome} (h : o.Known s)
    (hstep : Step cfg s l s') : o.Known s' := by
  intro raw username new ho
  obtain ⟨o, ho, husername⟩ := h raw username new ho
  exact ⟨o, hstep.origin ho, husername⟩

theorem Proc.Known.mono {l : Label D} {proc : Proc} (h : proc.Known cfg s)
    (hstep : Step cfg s l s') : proc.Known cfg s' := by
  refine ⟨h.sound.mono hstep, ?_, fun t position o ht ho => (h.outcome t position o ht ho).mono
    hstep⟩
  intro t raw record ht
  obtain ⟨o, ho, husername⟩ := h.taken t raw record ht
  exact ⟨o, hstep.origin ho, husername⟩

theorem Event.Known.mono {l : Label D} {e : Event D} (h : e.Known s) (hstep : Step cfg s l s') :
    e.Known s' := by
  cases e with
  | minted p raw username =>
    obtain ⟨o, ho, husername⟩ := h
    exact ⟨o, hstep.origin ho, husername⟩
  | accepted p raw time =>
    obtain ⟨o, ho, htime⟩ := h
    exact ⟨o, hstep.origin ho, htime⟩
  | saved p outcome => trivial
  | returned p t outcome => exact Outcome.Known.mono h hstep

omit [DecidableEq D] in
/-- A process that has just moved, by where it stands. -/
theorem Proc.known_of_outcome {holder : Option (ℕ × Position)} (hsound : Sound cfg s records)
    (htaken : ∀ t raw record, holder ≠ some (t, .taken raw record))
    (houtcome : ∀ t position o, holder = some (t, position) → position.outcome = some o →
      o.Known s) : Proc.Known cfg s ⟨records, holder, base⟩ :=
  ⟨hsound, fun t raw record h => absurd h (htaken t raw record), houtcome⟩

omit [DecidableEq D] in
/-- And by where it stands, if it has not consumed a token. -/
theorem Proc.known_of_quiet (hsound : Sound cfg s records)
    (htaken : ∀ raw record, position ≠ .taken raw record)
    (hquiet : ∀ raw username new, position.outcome ≠ some (.consumed raw username new)) :
    Proc.Known cfg s ⟨records, some (t, position), base⟩ := by
  refine Proc.known_of_outcome hsound ?_ ?_
  · rintro t raw record ⟨⟩
    exact htaken raw record rfl
  · rintro t position o ⟨⟩ ho raw username new rfl
    exact absurd ho (hquiet raw username new)

omit [DecidableEq D] in
theorem known_init : Known cfg (State.init : State D) :=
  ⟨fun _ _ h => absurd h (by simp [State.init]), fun _ h => absurd h (by simp [State.init]),
    fun _ h => absurd h (by simp [State.init]), fun _ h => absurd h (by simp [State.init])⟩

/-- One step writes one process, the two files and the log. -/
theorem Known.of_move {l : Label D} (hI : Known cfg s) (hstep : Step cfg s l s')
    {new : Option Proc} (hprocs : s'.procs = Function.update s.procs p new)
    (hnew : ∀ proc, new = some proc → proc.Known cfg s')
    (hfile : ∀ r, s'.file = some (.records r) → s.file = some (.records r) ∨ Sound cfg s' r)
    (htmp : ∀ r, s'.tmp = some (.records r) → s.tmp = some (.records r) ∨ Sound cfg s' r)
    (hlog : ∀ e ∈ s'.log, e ∈ s.log ∨ e.Known s') : Known cfg s' := by
  refine ⟨?_, fun r hr => ?_, fun r hr => ?_, fun e he => ?_⟩
  · rw [hprocs]
    exact Lts.forall_update (P := fun _ proc => proc.Known cfg s') hnew
      fun q proc _ hq => (hI.procs q proc hq).mono hstep
  · exact (hfile r hr).elim (fun h => (hI.file r h).mono hstep) id
  · exact (htmp r hr).elim (fun h => (hI.tmp r h).mono hstep) id
  · exact (hlog e he).elim (fun h => (hI.log e h).mono hstep) id

omit [DecidableEq D] in
/-- The records a process has when it starts are those of the file. -/
theorem Known.load (hI : Known cfg s) (readable : Bool) :
    Sound cfg s (load s.now readable s.file) := by
  unfold WebAuth.load
  split
  next r hr =>
    split_ifs
    · exact (hI.file r hr).keep _
    · intro k record hk
      exact absurd hk (by simp)
  · intro k record hk
    exact absurd hk (by simp)

/-- A new token: its record is one of a token that was made. -/
theorem Sound.mint {username : String} {new : Text} {login : Text} {o : Outcome}
    {origin : Option Origin} (h : Sound cfg s records) (hnew : s.origin new = none)
    (horigin : origin = some ⟨login, username, s.now + cfg.ttl⟩) :
    Sound cfg (s.mint p cfg t records base new username origin o)
      (records.insert (cfg.sha256 new) ⟨username, s.now + cfg.ttl⟩) := by
  intro k record hk
  rcases Dict.lookup_of_insert hk with ⟨rfl, rfl⟩ | ⟨hne, hk⟩
  · exact ⟨new, _, rfl, (Function.update_self ..).trans horigin, rfl⟩
  · obtain ⟨raw, o', hraw, ho, hrecord⟩ := h k record hk
    refine ⟨raw, o', hraw, (Function.update_of_ne ?_ ..).trans ho, hrecord⟩
    rintro rfl
    exact absurd (ho.symm.trans hnew) (by simp)

theorem Known.step {l : Label D} (hI : Known cfg s) (h : Step cfg s l s') : Known cfg s' := by
  have hkeep : ∀ e ∈ s.log, e ∈ s.log ∨ e.Known s' := fun e he => .inl he
  have hstep := h
  cases h with
  | tick d =>
    exact ⟨fun q proc hq => (hI.procs q proc hq).mono hstep,
      fun r hr => (hI.file r hr).mono hstep, fun r hr => (hI.tmp r hr).mono hstep,
      fun e he => (hI.log e he).mono hstep⟩
  | start readable hdown =>
    refine hI.of_move hstep rfl ?_ (fun r => .inl) (fun r => .inl) hkeep
    rintro proc ⟨⟩
    exact Proc.known_of_outcome (hI.load readable) (by simp) (by simp)
  | crash hup =>
    exact hI.of_move hstep rfl (by simp) (fun r => .inl) (fun r => .inl) hkeep
  | enter call hup =>
    refine hI.of_move hstep rfl ?_ (fun r => .inl) (fun r => .inl) hkeep
    rintro proc ⟨⟩
    refine Proc.known_of_quiet ?_ (by simp) (by simp [Position.outcome])
    have hsound := (hI.procs _ _ hup).sound
    split_ifs
    · exact hsound.keep _
    · exact hsound
  | @pass p t base records call outcome hat hout =>
    refine hI.of_move hstep rfl ?_ (fun r => .inl) (fun r => .inl) hkeep
    rintro proc ⟨⟩
    refine Proc.known_of_quiet (hI.procs _ _ hat).sound (by simp) fun raw username new ho => ?_
    obtain rfl := Option.some.inj ho
    exact absurd hout (by simp [Outcome.quiet])
  | drop hat hfound hexp =>
    refine hI.of_move hstep rfl ?_ (fun r => .inl) (fun r => .inl) hkeep
    rintro proc ⟨⟩
    exact Proc.known_of_quiet ((hI.procs _ _ hat).sound.erase _) (by simp)
      (by simp [Position.outcome])
  | accept hat hfound hlive =>
    obtain ⟨o, ho, hrecord⟩ := (hI.procs _ _ hat).sound.lookup hfound
    refine hI.of_move hstep rfl ?_ (fun r => .inl) (fun r => .inl) ?_
    · rintro proc ⟨⟩
      refine ⟨(hI.procs _ _ hat).sound.erase _, ?_, ?_⟩
      · rintro t raw record ⟨⟩
        exact ⟨o, ho, by rw [hrecord]⟩
      · rintro t position o ⟨⟩ ho
        exact absurd ho (by simp [Position.outcome])
    · intro e he
      rcases List.mem_cons.mp he with rfl | he
      · exact .inr ⟨o, ho, by rwa [hrecord] at hlive⟩
      · exact .inl he
  | @strike p t base n records username hat hn =>
    refine hI.of_move hstep rfl ?_ (fun r => .inl) (fun r => .inl) hkeep
    rintro proc ⟨⟩
    refine Proc.known_of_quiet ((hI.procs _ _ hat).sound.keep _) (fun raw record heq => ?_)
      fun raw username new ho => ?_
    · split_ifs at heq
    · split_ifs at ho
      · exact absurd (Option.some.inj ho) (by simp)
      · exact absurd (Option.some.inj ho) (by simp)
  | issue hat hnew =>
    refine hI.of_move hstep rfl ?_ (fun r => .inl) (fun r => .inl) ?_
    · rintro proc ⟨⟩
      exact Proc.known_of_quiet ((hI.procs _ _ hat).sound.mint hnew rfl) (by simp)
        (by simp [Position.outcome])
    · intro e he
      rcases List.mem_cons.mp he with rfl | he
      · exact .inr ⟨_, Function.update_self .., rfl⟩
      · exact .inl he
  | @rotate p t base records raw new record hat hnew =>
    obtain ⟨o, ho, husername⟩ := (hI.procs _ _ hat).taken _ _ _ rfl
    have horigin : ((s.origin raw).map fun o => (⟨o.login, o.username, s.now + cfg.ttl⟩ : Origin)) =
        some ⟨o.login, record.username, s.now + cfg.ttl⟩ := by
      rw [ho, ← husername]
      rfl
    refine hI.of_move hstep rfl ?_ (fun r => .inl) (fun r => .inl) ?_
    · rintro proc ⟨⟩
      refine Proc.known_of_outcome ((hI.procs _ _ hat).sound.mint hnew horigin) (by simp) ?_
      rintro t position outcome ⟨⟩ hout
      obtain rfl := Option.some.inj hout
      rintro raw' username' new' ⟨⟩
      exact ⟨o, hstep.origin ho, husername⟩
    · intro e he
      rcases List.mem_cons.mp he with rfl | he
      · exact .inr ⟨_, (Function.update_self ..).trans horigin, rfl⟩
      · exact .inl he
  | @write p t base records outcome hat =>
    have hsound : Sound cfg s records := (hI.procs _ _ hat).sound
    refine hI.of_move hstep rfl ?_ (fun r => .inl) ?_ hkeep
    · rintro proc ⟨⟩
      refine Proc.known_of_outcome hsound (by simp) ?_
      rintro t position o ⟨⟩ ho
      exact (hI.procs _ _ hat).outcome _ _ o rfl ho
    · rintro r ⟨⟩
      exact .inr hsound
  | tear hat =>
    refine hI.of_move hstep rfl ?_ (fun r => .inl) (by simp) hkeep
    rintro proc ⟨⟩
    exact Proc.known_of_quiet (hI.procs _ _ hat).sound (by simp) (by simp [Position.outcome])
  | @replace p t base records outcome file hat htmp =>
    refine hI.of_move hstep rfl ?_ ?_ (by simp) ?_
    · rintro proc ⟨⟩
      refine Proc.known_of_outcome (hI.procs _ _ hat).sound (by simp) ?_
      rintro t position o ⟨⟩ ho
      exact (hI.procs _ _ hat).outcome _ _ o rfl ho
    · rintro r ⟨⟩
      exact .inr ((hI.tmp r htmp).mono hstep)
    · intro e he
      rcases List.mem_cons.mp he with rfl | he
      · exact .inr trivial
      · exact .inl he
  | fail hat hposition =>
    refine hI.of_move hstep rfl ?_ (fun r => .inl) (fun r => .inl) hkeep
    rintro proc ⟨⟩
    exact Proc.known_of_quiet (hI.procs _ _ hat).sound (by simp) (by simp [Position.outcome])
  | leave hat =>
    refine hI.of_move hstep rfl ?_ (fun r => .inl) (fun r => .inl) ?_
    · rintro proc ⟨⟩
      exact Proc.known_of_outcome (hI.procs _ _ hat).sound (by simp) (by simp)
    · intro e he
      rcases List.mem_cons.mp he with rfl | he
      · exact .inr ((hI.procs _ _ hat).outcome _ _ _ rfl rfl)
      · exact .inl he

end WebAuth

end OtamanBridge
