import LidarAngle.Proofs.Command.Run
import LidarAngle.Proofs.Reply.Outcome
import LidarAngle.Proofs.Reply.RoundTrip

/-!
# The length of a typed payload

A typed payload is put behind the header in the settings, and of the two together the last twelve
bytes are decoded. So it is the reply as a whole that has to be long enough. Behind a header with
two spaces, the second one at its end, no payload of fewer than twelve bytes is accepted, but one of
more bytes is if the surplus can be read together with the amplitude.

## Main definitions

* `Reply.IsAccepted` - a binary reply has a calibration

## Main statements

* `Command.run_typed` - which typed payloads are accepted, and what comes of the others
* `Command.not_forall_length_typed` - twelve bytes are not required
-/

namespace LidarAngle

namespace Reply

variable {front bytes : List UInt8}

/-- The header of a binary reply has two spaces, and what stands behind them and the first word of
the payload are a number. -/
def IsAccepted (reply : List UInt8) : Prop :=
  payloadSize ≤ reply.length ∧ (header reply).count 0x20 = 2 ∧
    (word? (amplitudeToken reply)).isSome

instance (reply : List UInt8) : Decidable (IsAccepted reply) := by
  unfold IsAccepted; infer_instance

theorem exists_decode_binary_iff {reply : List UInt8} :
    (∃ c, (decode .binary reply).result = .ok c) ↔ IsAccepted reply := by
  unfold IsAccepted
  by_cases hsize : payloadSize ≤ reply.length
  · rw [result_decode_binary hsize]
    by_cases hcount : (header reply).count 0x20 = 2
    · rw [if_pos hcount, readField]
      cases word? (amplitudeToken reply) with
      | none => simp [Except.map]
      | some word => simp [Except.map, hsize, hcount]
    · simp [hcount]
  · rw [result_decode_binary_of_lt (not_le.1 hsize)]
    simp [hsize]

/-- The header of what is too short ends before the last byte of what is put in front. -/
theorem count_header_append_lt (hcount : front.count 0x20 = 2)
    (hlast : front.getLast? = some 0x20) (h : bytes.length < payloadSize) :
    (header (front ++ bytes)).count 0x20 < 2 := by
  obtain ⟨init, rfl⟩ := List.getLast?_eq_some_iff.1 hlast
  have hinit : init.count 0x20 = 1 := by simpa using hcount
  rw [List.append_assoc]
  have hsize : headerSize (init ++ ([0x20] ++ bytes)) ≤ init.length := by
    simp only [headerSize, List.length_append, List.length_singleton]
    omega
  have hle := (List.take_sublist (headerSize (init ++ ([0x20] ++ bytes))) init).count_le 0x20
  rw [header, List.take_append_of_le_length hsize]
  omega

/-- Behind a header with two spaces, the second one at its end, bytes are accepted if there are
enough of them and the surplus has no space and is a number together with the first word. -/
theorem isAccepted_append_iff (hcount : front.count 0x20 = 2)
    (hlast : front.getLast? = some 0x20) :
    IsAccepted (front ++ bytes) ↔
      payloadSize ≤ bytes.length ∧ 0x20 ∉ header bytes ∧
        (word? (Text.latin1 (header bytes) ++ digits (group (payload bytes) 0))).isSome := by
  by_cases hsize : payloadSize ≤ bytes.length
  · have hsplit : front ++ bytes = (front ++ header bytes) ++ payload bytes := by
      rw [List.append_assoc, header, payload, List.take_append_drop]
    have hpayload := length_payload_of_le hsize
    have hle : payloadSize ≤ ((front ++ header bytes) ++ payload bytes).length := by
      rw [List.length_append, hpayload]
      omega
    have hspaces : (front ++ header bytes).count 0x20 = 2 ↔ 0x20 ∉ header bytes := by
      rw [List.count_append, hcount, ← List.count_eq_zero]
      omega
    rw [hsplit, IsAccepted, amplitudeToken, header_append _ hpayload, payload_append _ hpayload,
      hspaces]
    -- What stands behind the second space is the surplus.
    have htail : 0x20 ∉ header bytes →
        tail (front ++ header bytes) = Text.latin1 (header bytes) := by
      intro hnone
      obtain ⟨init, rfl⟩ := List.getLast?_eq_some_iff.1 hlast
      rw [List.append_assoc, List.singleton_append]
      exact tail_append hnone
    constructor
    · rintro ⟨-, hnone, hword⟩
      exact ⟨hsize, hnone, htail hnone ▸ hword⟩
    · rintro ⟨-, hnone, hword⟩
      exact ⟨hle, hnone, (htail hnone).symm ▸ hword⟩
  · have hlt := count_header_append_lt hcount hlast (not_le.1 hsize)
    constructor
    · rintro ⟨-, htwo, -⟩
      omega
    · rintro ⟨hle, -, -⟩
      exact absurd hle hsize

end Reply

namespace Command

variable {options : Options} {settings : Settings} {text : List Char}

theorem exists_correction_iff (hascii : options.ascii = none)
    (hpayload : options.payload = some text) :
    (∃ c, (correction options settings).result = .ok c) ↔
      ∃ bytes, PayloadText.read text = .ok bytes ∧
        Reply.IsAccepted (Text.utf8 settings.header ++ bytes) := by
  cases hread : PayloadText.read text with
  | error flaw =>
    rw [result_correction_of_flaw hascii hpayload hread]
    simp
  | ok bytes =>
    have hreply : GivesReply settings options .binary _ := .payload hascii hpayload hread
    rw [hreply.result_correction]
    simp only [Except.ok.injEq, exists_eq_left', ← Reply.exists_decode_binary_iff]
    cases (Reply.decode .binary (Text.utf8 settings.header ++ bytes)).result with
    | error fault => simp [Except.map]
    | ok c => simp [Except.map]

/-- A typed payload is accepted if behind the header in the settings it makes a reply that is; of
any other nothing comes but a fault. Behind a header with two spaces, the second one at its end, it
needs twelve bytes, and any more have to be a number together with the first word. -/
theorem run_typed {directory : Directory}
    (hsettings : Command.settings options directory.read = .ok settings)
    (hascii : options.ascii = none) (hpayload : options.payload = some text) :
    ((∃ c, (correction options settings).result = .ok c) ↔
      ∃ bytes, PayloadText.read text = .ok bytes ∧
        Reply.IsAccepted (Text.utf8 settings.header ++ bytes)) ∧
    ((¬∃ c, (correction options settings).result = .ok c) →
      (run options directory).status ≠ 0 ∧ (run options directory).printed = .empty ∧
        (run options directory).directory = directory) ∧
    (settings.header.count ' ' = 2 → settings.header.getLast? = some ' ' →
      ∀ bytes, PayloadText.read text = .ok bytes →
        ((∃ c, (correction options settings).result = .ok c) ↔
          Reply.payloadSize ≤ bytes.length ∧ 0x20 ∉ Reply.header bytes ∧
            (Reply.word? (Text.latin1 (Reply.header bytes) ++
              Reply.digits (Reply.group (Reply.payload bytes) 0))).isSome)) := by
  have haccepted := @exists_correction_iff options settings text hascii hpayload
  refine ⟨haccepted, fun hnone => ?_, fun hcount hlast bytes hbytes => ?_⟩
  · cases hcorrection : (correction options settings).result with
    | error fault =>
      obtain ⟨hfault, hprinted, hdirectory⟩ := run_of_correction_error hsettings hcorrection
      refine ⟨?_, hprinted, hdirectory⟩
      rw [Outcome.status, hfault]
      exact fault.code_ne_zero
    | ok c => exact absurd ⟨c, hcorrection⟩ hnone
  · have hcount' : (Text.utf8 settings.header).count 0x20 = 2 := by rw [Text.count_utf8, hcount]
    rw [haccepted, ← Reply.isAccepted_append_iff hcount' (Text.getLast?_utf8 hlast), hbytes]
    simp only [Except.ok.injEq, exists_eq_left']

/-- Thirteen bytes of which the first is a space. -/
theorem run_typed_surplus_space :
    (run { payload := some "2000000765FFFCC9B9FFFFFF0B".toList } []).status ≠ 0 ∧
      (run { payload := some "2000000765FFFCC9B9FFFFFF0B".toList } []).printed = .empty ∧
      (run { payload := some "2000000765FFFCC9B9FFFFFF0B".toList } []).directory = [] := by
  obtain ⟨-, hrejected, hterminated⟩ := @run_typed
    { payload := some "2000000765FFFCC9B9FFFFFF0B".toList } {} _ [] rfl rfl rfl
  apply hrejected
  rw [hterminated (by decide) (by decide) [0x20, 0, 0, 7, 0x65, 0xFF, 0xFC, 0xC9, 0xB9, 0xFF,
    0xFF, 0xFF, 0x0B] (by decide)]
  decide

/-- Thirteen bytes of which the first is the digit zero are accepted. -/
theorem not_forall_length_typed :
    ¬∀ (options : Options) (directory : Directory) (settings : Settings) (text : List Char),
      Command.settings options directory.read = .ok settings → options.ascii = none →
        options.payload = some text →
        (∃ c, (correction options settings).result = .ok c) →
        ∃ bytes, PayloadText.read text = .ok bytes ∧ bytes.length = Reply.payloadSize := by
  intro hall
  have hread : PayloadText.read "3000000765FFFCC9B9FFFFFF0B".toList =
      .ok [0x30, 0, 0, 7, 0x65, 0xFF, 0xFC, 0xC9, 0xB9, 0xFF, 0xFF, 0xFF, 0x0B] := by
    decide
  obtain ⟨bytes, hbytes, hlength⟩ :=
    hall { payload := some "3000000765FFFCC9B9FFFFFF0B".toList } [] {} _ rfl rfl rfl
      ((exists_correction_iff rfl rfl).2 ⟨_, hread, by decide⟩)
  obtain rfl := Except.ok.inj (hread.symm.trans hbytes)
  exact absurd hlength (by decide)

end Command

end LidarAngle
