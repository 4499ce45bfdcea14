import LidarAngle.Proofs.Reply.Reread
import LidarAngle.Proofs.Session.Step

/-!
# Texts and their bytes

A reply in text form can be given as a text or as the bytes of the text in UTF-8. The bytes are read
in Latin-1, so beyond ASCII they are not read as they were written. All the same it makes no
difference to what is accepted, and none to the session in which the reply is received.

## Main statements

* `Session.receive_utf8` - a text and its bytes
-/

namespace LidarAngle.Session

open Reply (Rereads)

theorem sets?_receive_utf8 (text : List Char) :
    (Action.receive .ascii (Text.utf8 text)).sets? = (Action.receiveText text).sets? :=
  (Reply.rereads_decode text).toOption_eq

/-- From the bytes of a text comes what comes of the text itself: the same calibration, the same
number of tokens, or a fault of the same field, whose token is the same if it is in ASCII. Either
way of receiving the text leaves the same session. -/
theorem receive_utf8 (text : List Char) :
    Rereads (Reply.decodeText text) (Reply.decode .ascii (Text.utf8 text)).result ∧
      (∀ field token, Reply.decodeText text = .error (.badField field token) →
        (∀ c ∈ token, c.toNat < 128) →
          (Reply.decode .ascii (Text.utf8 text)).result = .error (.badField field token)) ∧
      ∀ (session : Session) (index : Nat),
        (session.step index (.receive .ascii (Text.utf8 text))).map (fun next => next.result.1) =
          (session.step index (.receiveText text)).map fun next => next.result.1 := by
  have hrereads := Reply.rereads_decode text
  refine ⟨hrereads, ?_, ?_⟩
  · intro field token hrejected hascii
    rw [hrejected] at hrereads
    rw [hrereads.eq_badField, Text.latin1_utf8_of_ascii hascii]
  · exact map_step_of_sets?_eq rfl rfl (sets?_receive_utf8 text)

/-- A marker beyond ASCII in front of an offset in ASCII that is no word. -/
theorem receive_utf8_umlaut :
    (∀ c ∈ "0x".toList, c.toNat < 128) ∧
      (Reply.decode .ascii (Text.utf8 "ü m +1 -2 0x ".toList)).result =
        .error (.badField .offset "0x".toList) ∧
      ((start false .neutral).step 0 (.receive .ascii (Text.utf8 "ü m +1 -2 0x ".toList))).map
          (fun next => next.result.1) =
        ((start false .neutral).step 0 (.receiveText "ü m +1 -2 0x ".toList)).map
          fun next => next.result.1 := by
  have hascii : ∀ c ∈ "0x".toList, c.toNat < 128 := by simp
  obtain ⟨-, hrejected, hsame⟩ := receive_utf8 "ü m +1 -2 0x ".toList
  exact ⟨hascii, hrejected .offset "0x".toList (by decide) hascii, hsame _ 0⟩

end LidarAngle.Session
