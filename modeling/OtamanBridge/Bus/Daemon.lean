import Mathlib.Data.List.AList
import Mathlib.Data.List.Sort
import OtamanBridge.Bus.Writers
import OtamanBridge.Core
import OtamanBridge.Lib.Run

/-!
# One bridge on a bus directory

The watcher of `bus_watcher.py`, the pending table and the taps of
`bus_surface_service.py`, the provenance gate of `bus_provenance.py` and the files they
share, as one transition system. A scan is not one step: other processes write between any
two accesses to a file, a tap is dispatched while a card is being sent, and the process may
die anywhere. So a step is one access to a file or one thing the transport does, and the
watcher and the dispatch of a tap have positions (`OtamanBridge.Bus.Phase`,
`OtamanBridge.Bus.Tap`). Both run on one event loop: a tap is dispatched where the watcher
awaits the transport or sleeps, and the watcher goes on when the tap is done.

What nothing in the program reads is history: the text a message was parsed from, the
messages a scan has read and come to, and the log of what was handed on.
-/

namespace OtamanBridge

namespace Bus

open Py

open Inbox (Content)

/-! ### What is shared -/

/-- What the bridge runs on: Python and PyYAML, and `otaman_core.confirmations`, with its
`PRIVILEGED_TYPES` and `hash_message`. -/
structure Config where
  py : Python
  privileged : Text → Bool
  hash : Text → Text

/-- The surfaced state: when a message was marked, by its stem. -/
abbrev Surfaced := AList fun _ : Text => Seconds

/-- A message as `iter_bus_messages` yields it, and the text it was parsed from. -/
structure Parsed where
  msg : BusMessage
  source : Text

/-- What one scan works with. -/
structure Scan where
  state : Surfaced
  overrides : Value
  now : Seconds
  /-- `state_changed`. -/
  changed : Bool := false
  /-- The messages of `iter_bus_messages`. -/
  read : List Parsed := []
  /-- The messages the loop has come to. -/
  done : List Parsed := []

/-- Where the watcher stands. -/
inductive Phase
  /-- Between two scans. -/
  | idle
  /-- In `iter_bus_messages`: the files still to be read, and the messages so far. -/
  | reading (scan : Scan) (stems : List Text) (parsed : List Parsed)
  /-- At the top of the loop, with these messages to go. -/
  | looping (scan : Scan) (todo : List Parsed)
  /-- The message is not verified; `quarantine_message` comes next. -/
  | quarantining (scan : Scan) (p : Parsed) (todo : List Parsed)
  /-- The quarantine alert is being sent. -/
  | alerting (scan : Scan) (todo : List Parsed)
  /-- In `on_approval`, if the decision is interactive, or in `on_info`. -/
  | handing (scan : Scan) (p : Parsed) (interactive : Bool) (todo : List Parsed)
  /-- `on_event` comes next, then the mark; the message was handed on, or is not surfaced. -/
  | firing (scan : Scan) (p : Parsed) (surfaced : Bool) (todo : List Parsed)
  /-- `_save_state` comes next. -/
  | saving (scan : Scan)

/-- Where the event loop may turn to something else. -/
def Phase.awaits : Phase → Bool
  | .idle => true
  | .alerting .. => true
  | .handing .. => true
  | _ => false

/-- `InboundReply.action`, as far as bus cards know it. -/
inductive BusAction
  | decide (v : Verdict)
  | acknowledge
  | comment
  | other
  deriving DecidableEq

/-- `InboundReply`. -/
structure Reply where
  requestId : Text
  action : BusAction
  responder : Text
  comment : Text

/-- A file a tap makes. -/
inductive Write
  /-- The `human.ack` file, with this content. -/
  | ack (content : Text)
  /-- The broadcast of a decision. -/
  | broadcast (v : Verdict)
  /-- A reply to the sender. -/
  | reply (text : Text)
  deriving DecidableEq

/-- The dispatch of a tap: what it writes, and whether it clears the card in the end. -/
structure Tap where
  card : Parsed
  reply : Reply
  todo : List Write
  /-- The first file to be written is open, and empty: its stem and its text. -/
  opened : Option (Text × Text)
  clears : Bool

/-- What has happened. -/
inductive Happened
  /-- `on_info` or `on_approval` was called with this message. -/
  | offered (p : Parsed) (interactive : Bool)
  /-- The call returned without an exception. -/
  | handed (p : Parsed) (interactive : Bool)
  /-- `on_event` was called with this message, by a scan with these overrides. -/
  | fired (p : Parsed) (overrides : Value)
  /-- The file was moved to the quarantine. -/
  | quarantined (stem : Text)
  /-- A `human.ack` was opened for this content, or written, when this was there. -/
  | acked (stem : Text) (before : Option Text) (content : Text)
  /-- The broadcast of a decision, this text, was written to the file with this stem. -/
  | announced (stem : Text) (v : Verdict) (file text : Text)

/-- The state of the bridge and its directory. -/
structure State where
  now : Seconds
  /-- `.agents/bus/active/<stem>.md`. -/
  active : AList fun _ : Text => Content
  /-- `.agents/bus/active/acks/<stem>.human.ack`. -/
  acks : Text → Option Text
  /-- The confirmation ledger: message ids and hashes. -/
  ledger : List (Text × Text)
  /-- `.otaman/bus-surfaced.state`. -/
  persisted : Option Surfaced
  /-- `.maestro/bus-surfaced.state`. -/
  legacy : Option Surfaced
  up : Bool
  /-- `_pending_bus`. -/
  pending : Text → Option Parsed
  phase : Phase
  tap : Option Tap
  /-- The newest first. -/
  log : List Happened

/-! ### The surfaced state -/

/-- `PRUNE_OLDER_THAN_SECONDS`. -/
def pruneOlderThanSeconds : Seconds := 7 * 24 * 60 * 60

/-- The entries `_save_state` keeps. -/
def prune (now : Seconds) (state : Surfaced) : Surfaced where
  entries := state.entries.filter fun e => now - pruneOlderThanSeconds ≤ e.2
  nodupKeys := state.nodupKeys.sublist List.filter_sublist

/-- `_load_state`: what it returns, and the state file after it. A file that cannot be
read is taken for an empty one; a legacy file is copied, pruned. -/
def loadState (s : State) (readable : Bool) : Surfaced × Option Surfaced :=
  match s.persisted, s.legacy with
  | some state, _ => (if readable then state else ∅, s.persisted)
  | none, some state => if readable then (state, some (prune s.now state)) else (∅, none)
  | none, none => (∅, none)

/-- The surfaced state on disk: the state file, or the legacy file where there is none. -/
def State.stored (s : State) : Surfaced :=
  (s.persisted.orElse fun _ => s.legacy).getD ∅

/-! ### The gate -/

/-- `verify_provenance`, on the text it has read. -/
def confirmed (cfg : Config) (ledger : List (Text × Text)) (m : BusMessage) (raw : Text) : Bool :=
  (m.stem, cfg.hash raw) ∈ ledger ||
    (m.id cfg.py ≠ m.stem && (m.id cfg.py, cfg.hash raw) ∈ ledger)

/-- `verify_provenance`: a file that cannot be read is not verified, and one that cannot be
decoded raises. -/
def verifyProvenance (cfg : Config) (s : State) (m : BusMessage) : Except Unit Bool :=
  match s.active.lookup m.stem with
  | none => .ok false
  | some (.undecodable _) => .error ()
  | some (.text raw) => .ok (confirmed cfg s.ledger m (universalNewlines raw))

/-- What a file reads as, with the text. -/
def readMessage (cfg : Config) (s : State) (stem : Text) : Except Unit (Option Parsed) :=
  (parseBusFile cfg.py stem (s.active.lookup stem)).map fun m? => m?.map fun m =>
    ⟨m, match s.active.lookup stem with
      | some (.text raw) => universalNewlines raw
      | _ => []⟩

/-- `sorted(active.glob("*.md"))`. -/
def listing (s : State) : List Text :=
  s.active.keys.insertionSort fun a b => a ++ lit ".md" ≤ b ++ lit ".md"

/-! ### Labels -/

/-- The name of a step: who moves, and what the environment answers. -/
inductive Label
  /-- The clock reads `t`. -/
  | tick (t : Seconds)
  /-- Another process creates or replaces a message file. -/
  | put (stem : Text) (content : Content)
  /-- Another process deletes a message file. -/
  | delete (stem : Text)
  /-- A confirmation is recorded. -/
  | confirm (id digest : Text)
  /-- The local command line writes a `human.ack`. -/
  | cliAck (stem content : Text)
  /-- The bridge starts, and recovers its cards. -/
  | start (overrides : Value) (readable : Bool)
  /-- The bridge stops or dies. -/
  | crash
  /-- A scan begins, with these overrides. -/
  | scan (overrides : Value) (readable : Bool)
  /-- `iter_bus_messages` reads the next file. -/
  | read
  /-- The loop takes the next message, up to the first hand-off or file access. -/
  | turn
  /-- The callback of the transport returns, or raises. -/
  | handed (ok : Bool)
  /-- `on_event` returns or raises, and the message is marked. -/
  | fired
  /-- The file is moved to the quarantine. -/
  | quarantine
  /-- The quarantine alert is sent, or fails. -/
  | alerted
  /-- `_save_state` writes the file, or raises. -/
  | save (ok : Bool)
  /-- Anything else in a scan raises. -/
  | abort
  /-- A reply of the transport is dispatched. -/
  | tap (reply : Reply)
  /-- The next file of a tap is opened, or this raises. -/
  | openFile (ok : Bool) (micro : ℕ)
  /-- The open file is written, or this raises. -/
  | writeFile (ok : Bool)
  /-- The tap is done. -/
  | finish

/-! ### The watcher -/

/-- `iter_bus_messages`, one file. -/
def readStep (cfg : Config) (s : State) : Option State :=
  match s.phase with
  | .reading scan [] parsed => some { s with phase := .looping { scan with read := parsed } parsed }
  | .reading scan (stem :: stems) parsed =>
    match readMessage cfg s stem with
    | .error () => some { s with phase := .idle }
    | .ok none => some { s with phase := .reading scan stems parsed }
    | .ok (some p) => some { s with phase := .reading scan stems (parsed ++ [p]) }
  | _ => none

/-- What the loop does with a message that passed the gate. -/
def offer (cfg : Config) (s : State) (scan : Scan) (p : Parsed) (todo : List Parsed) : State :=
  let decision := decide cfg.py p.msg scan.overrides
  if decision.surface then
    { s with
      phase := .handing scan p decision.interactive todo
      pending := if decision.interactive then Function.update s.pending p.msg.stem (some p)
        else s.pending
      log := .offered p decision.interactive :: s.log }
  else { s with phase := .firing scan p false todo }

/-- The loop of `_scan_once`, at its top. -/
def turnStep (cfg : Config) (s : State) : Option State :=
  match s.phase with
  | .looping scan [] => some { s with phase := if scan.changed then .saving scan else .idle }
  | .looping scan (p :: todo) =>
    let scan := { scan with done := scan.done ++ [p] }
    if p.msg.stem ∈ scan.state then some { s with phase := .looping scan todo }
    else if cfg.privileged (p.msg.type cfg.py) then
      match verifyProvenance cfg s p.msg with
      | .error () => some { s with phase := .idle }
      | .ok true => some (offer cfg s scan p todo)
      | .ok false => some { s with phase := .quarantining scan p todo }
    else some (offer cfg s scan p todo)
  | _ => none

/-- The hand-off returns. A failed one takes its card back, and the message is left for
the next scan. -/
def handedStep (s : State) (ok : Bool) : Option State :=
  match s.phase with
  | .handing scan p interactive todo =>
    if ok then
      some { s with phase := .firing scan p true todo, log := .handed p interactive :: s.log }
    else
      some { s with
        phase := .looping scan todo
        pending := if interactive then Function.update s.pending p.msg.stem none else s.pending }
  | _ => none

/-- `on_event`, and `state[msg.stem] = now`. -/
def firedStep (s : State) : Option State :=
  match s.phase with
  | .firing scan p _ todo =>
    some { s with
      phase := .looping { scan with
        state := scan.state.insert p.msg.stem scan.now, changed := true } todo
      log := .fired p scan.overrides :: s.log }
  | _ => none

/-- `quarantine_message`: a file that is gone raises. -/
def quarantineStep (s : State) : Option State :=
  match s.phase with
  | .quarantining scan p todo =>
    if p.msg.stem ∈ s.active then
      some { s with
        phase := .alerting scan todo, active := s.active.erase p.msg.stem
        log := .quarantined p.msg.stem :: s.log }
    else some { s with phase := .idle }
  | _ => none

/-- The end of a scan. -/
def saveStep (s : State) (ok : Bool) : Option State :=
  match s.phase with
  | .saving scan =>
    if ok then some { s with phase := .idle, persisted := some (prune s.now scan.state) }
    else some { s with phase := .idle }
  | _ => none

/-! ### Start -/

/-- `_recover_undecided_pendings`, on the messages of the directory. -/
def recoverPendings (cfg : Config) (s : State) (surfaced : Surfaced) (overrides : Value) :
    List Parsed → Text → Option Parsed
  | [] => fun _ => none
  | p :: ps =>
    let rest := recoverPendings cfg s surfaced overrides ps
    if p.msg.stem ∈ surfaced ∧ s.acks p.msg.stem = none ∧
        (decide cfg.py p.msg overrides).interactive then
      Function.update rest p.msg.stem (some p)
    else rest

/-- `start`: the surfaced state is loaded and the cards are recovered. Where a file raises,
the bridge does not start; without surfaced messages no file is read. -/
def startStep (cfg : Config) (s : State) (overrides : Value) (readable : Bool) : Option State :=
  if s.up then none
  else
    let (surfaced, persisted) := loadState s readable
    if surfaced.entries = [] then some { s with persisted := persisted, up := true }
    else
      match (listing s).mapM (readMessage cfg s) with
      | .error () => some { s with persisted := persisted }
      | .ok read =>
        some { s with
          persisted := persisted, up := true
          pending := recoverPendings cfg s surfaced overrides (read.filterMap id) }

/-- `scan_once`, up to the list of the files. -/
def scanStep (s : State) (overrides : Value) (readable : Bool) : Option State :=
  match s.phase with
  | .idle =>
    if s.up then
      let (state, persisted) := loadState s readable
      some { s with
        persisted := persisted
        phase := .reading { state, overrides, now := s.now } (listing s) [] }
    else none
  | _ => none

/-! ### Taps -/

/-- The type of the messages that ask for a decision. -/
def specChangeRequest : Text := lit "spec-change-request"

/-- What `_dispatch_bus_decision` goes on to write, if anything. -/
def writesOf (cfg : Config) (p : Parsed) (r : Reply) : Option (List Write × Bool) :=
  let acknowledge := [Write.ack (lit "acknowledged\n")] ++
    (if r.comment = [] then [] else [.reply r.comment])
  match r.action with
  | .comment => if strip r.comment = [] then none else some ([.reply (strip r.comment)], false)
  | .acknowledge => some (acknowledge, true)
  | .decide v =>
    if p.msg.type cfg.py = specChangeRequest then some ([.ack v.ack, .broadcast v], true)
    else some (acknowledge, true)
  | .other => none

/-- `dispatch`. -/
def tapStep (cfg : Config) (s : State) (r : Reply) : Option State :=
  if ¬s.up ∨ s.tap.isSome ∨ ¬s.phase.awaits then none
  else
    match s.pending r.requestId with
    | none => some s
    | some p =>
      match writesOf cfg p r with
      | none => some s
      | some (todo, clears) => some { s with tap := some ⟨p, r, todo, none, clears⟩ }

/-- The second and the microseconds the clock of the bridge shows. -/
def State.instant (s : State) (micro : ℕ) : Instant := ⟨s.now.floor.toNat, micro⟩

/-- The file a broadcast or a reply goes to. -/
def fileOf (cfg : Config) (s : State) (micro : ℕ) (p : Parsed) (r : Reply) :
    Write → Option MessageFile
  | .ack _ => none
  | .broadcast v =>
    some (broadcastDecision cfg.py p.msg (s.instant micro) r.responder r.comment v)
  | .reply text => some (replyMessage cfg.py p.msg (s.instant micro) r.responder text)

/-- The stem of a message file. -/
def stemOf (name : Text) : Text := name.take (name.length - 3)

/-- A message file of the bridge in the active directory. A name with a separator in it
names no entry of this directory. -/
def putFile (active : AList fun _ : Text => Content) (stem text : Text) :
    AList fun _ : Text => Content :=
  if '/'.toNat ∈ stem then active else active.insert stem (.text text)

/-- A file of a tap is opened, which empties it. -/
def openStep (cfg : Config) (s : State) (ok : Bool) (micro : ℕ) : Option State :=
  match s.tap with
  | some ⟨p, r, w :: todo, none, clears⟩ =>
    if ¬ok then some { s with tap := none }
    else
      match w with
      | .ack content =>
        some { s with
          acks := Function.update s.acks p.msg.stem (some [])
          tap := some ⟨p, r, .ack content :: todo, some (p.msg.stem, content), clears⟩
          log := .acked p.msg.stem (s.acks p.msg.stem) content :: s.log }
      | w =>
        (fileOf cfg s micro p r w).map fun f =>
          { s with
            active := putFile s.active (stemOf f.name) []
            tap := some ⟨p, r, w :: todo, some (stemOf f.name, f.text), clears⟩ }
  | _ => none

/-- An open file of a tap is written. -/
def writeStep (s : State) (ok : Bool) : Option State :=
  match s.tap with
  | some ⟨p, r, w :: todo, some (stem, text), clears⟩ =>
    if ¬ok then some { s with tap := none }
    else
      let s : State := { s with tap := some ⟨p, r, todo, none, clears⟩ }
      match w with
      | .ack _ =>
        some { s with
          acks := Function.update s.acks stem (some text)
          log := .acked stem (s.acks stem) text :: s.log }
      | .broadcast v =>
        some { s with
          active := putFile s.active stem text
          log := .announced p.msg.stem v stem text :: s.log }
      | .reply _ => some { s with active := putFile s.active stem text }
  | _ => none

/-- A tap that has written everything. -/
def finishStep (s : State) : Option State :=
  match s.tap with
  | some ⟨_, r, [], none, clears⟩ =>
    some { s with
      tap := none
      pending := if clears then Function.update s.pending r.requestId none else s.pending }
  | _ => none

/-! ### The transition function -/

/-- A step of the watcher, for which the event loop has to be free. -/
def watcherStep (s : State) (next : Option State) : Option State :=
  if s.tap.isSome then none else next

/-- The alert is sent, or fails. -/
def alertedStep (s : State) : Option State :=
  match s.phase with
  | .alerting scan todo => some { s with phase := .looping scan todo }
  | _ => none

/-- The transition function. -/
def step (cfg : Config) (s : State) : Label → Option State
  | .tick t => if s.now ≤ t then some { s with now := t } else none
  | .put stem content => some { s with active := s.active.insert stem content }
  | .delete stem => some { s with active := s.active.erase stem }
  | .confirm id digest => some { s with ledger := (id, digest) :: s.ledger }
  | .cliAck stem content => some { s with acks := Function.update s.acks stem (some content) }
  | .start overrides readable => startStep cfg s overrides readable
  | .crash =>
    some { s with up := false, phase := .idle, tap := none, pending := fun _ => none }
  | .scan overrides readable => watcherStep s (scanStep s overrides readable)
  | .read => watcherStep s (readStep cfg s)
  | .turn => watcherStep s (turnStep cfg s)
  | .handed ok => watcherStep s (handedStep s ok)
  | .fired => watcherStep s (firedStep s)
  | .quarantine => watcherStep s (quarantineStep s)
  | .alerted => watcherStep s (alertedStep s)
  | .save ok => watcherStep s (saveStep s ok)
  | .abort => watcherStep s (some { s with phase := .idle })
  | .tap r => tapStep cfg s r
  | .openFile ok micro => openStep cfg s ok micro
  | .writeFile ok => writeStep s ok
  | .finish => finishStep s

/-- A bridge that has not run on its directory yet, with the messages, acks and
confirmations that are there. -/
structure Initial (s : State) : Prop where
  down : s.up = false
  phase : s.phase = .idle
  tap : s.tap = none
  pending : ∀ stem, s.pending stem = none
  log : s.log = []

end Bus

end OtamanBridge
