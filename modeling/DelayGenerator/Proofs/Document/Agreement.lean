/-
This file compares the two ways to decode a document: from its text, and from the value that the
text is read as.
-/

import DelayGenerator.Proofs.Document.Snapshot

namespace DelayGenerator

namespace Json

/-- A decoder that treats texts like values, and to which the order of the members is nothing,
makes of a text what it makes of the text's value with sorted members. -/
theorem Decoder.decodeText_eq_ok_iff_sorted {α : Type} {decoder : Decoder α}
    (isConsistent : decoder.IsConsistent) (isOrderless : decoder.IsOrderless) {text : String} {value : Json}
    (parsed : parse text = .ok value) (once : value.NamesOnce) (result : α) :
    decoder.decodeText text = .ok result ↔ decoder.decodeValue value.sorted = .ok result := by
  have onceToo : value.sorted.NamesOnce := once.sorted
  calc decoder.decodeText text = .ok result
      ↔ decoder.fromValue value = .ok result := isConsistent.decodeText_eq_ok_iff parsed result
    _ ↔ decoder.fromValue value.sorted = .ok result := ((isOrderless once).eq_ok_iff result).symm
    _ ↔ decoder.decodeValue value.sorted = .ok result := (isOrderless.decodeValue onceToo result).symm

end Json

namespace Document

/-- A text that is read as a value without a repeated name gives a snapshot if and only if the value
gives one, and then both give the same. -/
theorem decode_eq_ok_iff_decodeValue {text : String} {value : Json} (parsed : Json.parse text = .ok value)
    (once : value.NamesOnce) (snapshot : Snapshot) :
    decode text = .ok snapshot ↔ decodeValue value.sorted = .ok snapshot := by
  have forms (form : SnapshotForm) : snapshotLayout.decoder.decodeText text = .ok form ↔
      snapshotLayout.decoder.decodeValue value.sorted = .ok form :=
    Json.Decoder.decodeText_eq_ok_iff_sorted isConsistent_snapshot isOrderless_snapshotLayout.decoder parsed
      once form
  constructor
  · intro decoded
    obtain ⟨form, read, same⟩ := Json.of_bind decoded
    rw [decodeValue, (forms form).mp read]
    exact same
  · intro decoded
    obtain ⟨form, taken, same⟩ := Json.of_bind decoded
    rw [decode, (forms form).mpr taken]
    exact same

/-- Lists stand in place of records, members are out of order and unknown, and a number is beyond
the machine words. -/
theorem decode_eq_ok_iff_decodeValue_lists :
    ∃ text value, Json.parse text = .ok value ∧ value.NamesOnce ∧ (decode text).isOk = true ∧
      ∀ snapshot, decode text = .ok snapshot ↔ decodeValue value.sorted = .ok snapshot := by
  let text := "\x7b\"protocols\":[\"on\",-0,[\x7b\"pulses\":[[9223372036854775808,\" 1.5 \",null]],\"index\":0," ++
    "\"note\":[\x7b\x7d]\x7d]],\"idn\":\"DG\"\x7d"
  have holds : (match Json.parse text with
      | .ok value => decide value.NamesOnce
      | .error _ => false) = true := by decide +kernel
  cases parsed : Json.parse text with
  | error error => simp only [parsed, Bool.false_eq_true] at holds
  | ok value =>
      simp only [parsed, decide_eq_true_eq] at holds
      exact ⟨text, value, parsed, holds, by decide +kernel, decode_eq_ok_iff_decodeValue parsed holds⟩

end Document

end DelayGenerator
