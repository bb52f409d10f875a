import OtamanBridge.Bus.Daemon
import OtamanBridge.Lib.Utf8
import OtamanBridge.Telegram.Cards

/-!
# The data of a button

A button of a card carries a code for its action and the request id of the card, with a bar
between them. Telegram takes 64 bytes at most. The codec itself is sound: what stands before
the first bar is the code, and no code has a bar in it, so that every id comes back.

A generated id has 24 characters, and fits. The id of a bus card is the stem of a file
that somebody else has named, and the data fits exactly if the stem has a UTF-8 encoding of
62 bytes or less (`OtamanBridge.Telegram.callbacks_iff`). The bridge names such files
itself, with the subject of an issue in the name, and those can be longer
(`OtamanBridge.Telegram.not_callbackOk_pmIssue`).
-/

namespace OtamanBridge

namespace Telegram

open Py Bus

/-! ### The codec -/

/-- `_ACTION_CODES`. -/
def actionCodes : List (Text × Text) :=
  [(lit "approve", lit "A"), (lit "reject", lit "R"), (lit "details", lit "D"),
    (lit "snooze", lit "S"), (lit "comment", lit "C"), (lit "view-diff", lit "V")]

/-- `_ACTION_DECODE`. -/
def actionDecode : List (Text × Text) := actionCodes.map Prod.swap

/-- `encode_callback`. -/
def encodeCallback (action requestId : Text) : Text :=
  (actionCodes.lookup action).getD action ++ lit "|" ++ requestId

/-- `data.partition("|")`, without the separator. -/
def partitionBar (data : Text) : Text × Text := (cut (lit "|") data).getD (data, [])

/-- `decode_callback`. -/
def decodeCallback (data : Text) : Text × Text :=
  ((actionDecode.lookup (partitionBar data).1).getD (partitionBar data).1, (partitionBar data).2)

/-- The rows of `_build_keyboard`: the action of each button. -/
def keyboard : List (List Text) :=
  [[lit "approve", lit "reject"], [lit "details", lit "snooze"]]

/-- `_build_keyboard`: the action and the data of each button. -/
def buildKeyboard (requestId : Text) : List (List (Text × Text)) :=
  keyboard.map fun row => row.map fun action => (action, encodeCallback action requestId)

/-! ### What is asked of it -/

/-- The data is at most 64 bytes of UTF-8. -/
def Fits (data : Text) : Prop := ∃ bytes, Utf8.encode data = some bytes ∧ bytes.length ≤ 64

/-- **The buttons of a card work**: the data of each fits, and says which action it is and
which request. -/
def CallbackOk (requestId : Text) : Prop :=
  ∀ row ∈ buildKeyboard requestId, ∀ button ∈ row, Fits button.2 ∧
    decodeCallback button.2 = (button.1, requestId)

/-- The id has a UTF-8 encoding of at most 62 bytes. -/
def Short (requestId : Text) : Prop :=
  ∃ bytes, Utf8.encode requestId = some bytes ∧ bytes.length ≤ 62

/-! ### The buttons -/

/-- The code of a button is one letter, that stands for its action. -/
theorem encodeCallback_keyboard {row : List Text} {action : Text} (hrow : row ∈ keyboard)
    (haction : action ∈ row) (requestId : Text) :
    ∃ c, c < 0x80 ∧ c ≠ '|'.toNat ∧ (actionDecode.lookup [c]).getD [c] = action ∧
      encodeCallback action requestId = c :: lit "|" ++ requestId := by
  have hall : ∀ row ∈ keyboard, ∀ action ∈ row, ∃ c ∈ lit "ARDS", c < 0x80 ∧ c ≠ '|'.toNat ∧
      (actionDecode.lookup [c]).getD [c] = action ∧ actionCodes.lookup action = some [c] := by
    decide
  obtain ⟨c, -, hascii, hbar, hdecode, hcode⟩ := hall row hrow action haction
  refine ⟨c, hascii, hbar, hdecode, ?_⟩
  rw [encodeCallback, hcode]
  rfl

/-- **The codec gives back what it was given**, whatever the id is made of. -/
theorem decodeCallback_encodeCallback {row : List Text} {action : Text} (hrow : row ∈ keyboard)
    (haction : action ∈ row) (requestId : Text) :
    decodeCallback (encodeCallback action requestId) = (action, requestId) := by
  obtain ⟨c, -, hbar, hdecode, hencode⟩ := encodeCallback_keyboard hrow haction requestId
  have hlit : lit "|" = ['|'.toNat] := by decide
  have hparts : partitionBar (encodeCallback action requestId) = ([c], requestId) := by
    have hcut : cut ['|'.toNat] ([c] ++ (lit "|" ++ requestId)) = _ :=
      cut_append (fun hmem => hbar (List.mem_singleton.mp hmem).symm) _
    rw [← hlit, cut_self] at hcut
    rw [partitionBar, hencode, List.cons_append, ← List.singleton_append, hcut]
    rfl
  rw [decodeCallback, hparts, hdecode]

/-- A button needs two bytes more than the id. -/
theorem fits_iff {row : List Text} {action : Text} (hrow : row ∈ keyboard)
    (haction : action ∈ row) (requestId : Text) :
    Fits (encodeCallback action requestId) ↔ Short requestId := by
  obtain ⟨c, hascii, -, -, hencode⟩ := encodeCallback_keyboard hrow haction requestId
  have hcode : Utf8.encode (c :: lit "|") = some (c :: lit "|") := by
    have hbar : ∀ d ∈ lit "|", d < 0x80 := by decide
    exact Utf8.encode_of_ascii (List.forall_mem_cons.mpr ⟨hascii, hbar⟩)
  have hlen : (c :: lit "|").length = 2 := rfl
  rw [Fits, Short, hencode, Utf8.encode_append, hcode, Option.bind_some]
  constructor
  · rintro ⟨bytes, hbytes, hle⟩
    obtain ⟨bytes', hbytes', rfl⟩ := Option.map_eq_some_iff.mp hbytes
    rw [List.length_append, hlen] at hle
    exact ⟨bytes', hbytes', by omega⟩
  · rintro ⟨bytes, hbytes, hle⟩
    refine ⟨_, by rw [hbytes]; rfl, ?_⟩
    rw [List.length_append, hlen]
    omega

theorem callbackOk_iff_short (requestId : Text) : CallbackOk requestId ↔ Short requestId := by
  simp only [CallbackOk, buildKeyboard, List.forall_mem_map]
  have hrow : [lit "approve", lit "reject"] ∈ keyboard := List.mem_cons_self
  constructor
  · intro h
    exact (fits_iff hrow List.mem_cons_self _).mp (h _ hrow _ List.mem_cons_self).1
  · intro h row hrow action haction
    exact ⟨(fits_iff hrow haction _).mpr h, decodeCallback_encodeCallback hrow haction _⟩

/-- A generated id is short. -/
theorem short_newRequestId (now : Now) (token : BitVec 32) : Short (newRequestId now token) :=
  ⟨_, Utf8.encode_of_ascii fun _ hc => newRequestId_ascii hc,
    by rw [length_newRequestId]; omega⟩

/-- **When callback data fits and comes back.** The buttons of a card with a generated id
always work; those of a card for a bus file that is surfaced as interactive work exactly if
the stem of the file has a UTF-8 encoding of at most 62 bytes. -/
theorem callbacks_iff (py : Bus.Python) (m : BusMessage) (overrides : Value)
    (account project : Text) (now : Now) (token : BitVec 32) :
    CallbackOk (newRequestId now token) ∧
      ((decide py m overrides).interactive = true →
        (CallbackOk (buildApprovalRequest py m account project).requestId ↔ Short m.stem)) :=
  ⟨(callbackOk_iff_short _).mpr (short_newRequestId now token),
    fun _ => callbackOk_iff_short m.stem⟩

/-- The message the bridge writes when an issue is created that belongs to no repository. -/
def pmIssueFile : MessageFile :=
  pmMessage plainPython ⟨0, 0⟩ (lit "pm-issue-created") (lit "human")
    (lit "PM issue_created: Login page rejects passwords with umlauts")
    (lit "event_type: issue_created\nproject_id: 7\nissue_id: 12\n") (lit "normal")

/-- **A card for a message of the bridge itself has no buttons that work**: the message to the
human about a new issue is interactive, and the stem of its file has 72 characters. -/
theorem not_callbackOk_pmIssue :
    ∃ m, parseBusFile plainPython (stemOf pmIssueFile.name) (some (.text pmIssueFile.text)) =
        .ok (some m) ∧ (decide plainPython m (.dict [])).interactive = true ∧
      ¬CallbackOk (buildApprovalRequest plainPython m (lit "default") (lit "shop")).requestId := by
  have hread : ((parseBusFile plainPython (stemOf pmIssueFile.name)
      (some (.text pmIssueFile.text))).toOption.join.any fun m =>
        (decide plainPython m (.dict [])).interactive) = true := by decide +kernel
  obtain ⟨m, hm, hinteractive⟩ := (Option.any_eq_true ..).mp hread
  have hparse := eq_ok_of_join hm
  refine ⟨m, hparse, hinteractive, fun hok => ?_⟩
  obtain ⟨bytes, hbytes, hle⟩ := (callbackOk_iff_short _).mp hok
  have hstem : (buildApprovalRequest plainPython m (lit "default") (lit "shop")).requestId =
      stemOf pmIssueFile.name := stem_of_parseBusFile plainPython hparse
  rw [hstem, Utf8.encode_of_ascii (by decide +kernel)] at hbytes
  obtain rfl := Option.some.inj hbytes
  exact absurd hle (by decide +kernel)

end Telegram

end OtamanBridge
