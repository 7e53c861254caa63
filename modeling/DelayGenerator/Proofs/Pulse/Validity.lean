/-
This file says which snapshots are valid, and shows that no reply makes a valid snapshot invalid.
-/

import DelayGenerator.Proofs.Pulse.Transmission

namespace DelayGenerator

namespace Text

/-- A text that names the instrument: printable, without a space at either end, and no error token. The
empty text stands for a name that is not known. -/
structure IsLabel (text : String) : Prop where
  printable : IsPrintable text
  head : ∀ first ∈ text.toList.head?, first ≠ ' ' ∧ first ≠ '?'
  last : ∀ last ∈ text.toList.getLast?, last ≠ ' '

instance (text : String) : Decidable (IsLabel text) :=
  haveI (condition : Char → Prop) [DecidablePred condition] (end? : Option Char) :
      Decidable (∀ character ∈ end?, condition character) := Option.decidableForallMem end?
  decidable_of_iff (IsPrintable text ∧ (∀ first ∈ text.toList.head?, first ≠ ' ' ∧ first ≠ '?') ∧
      ∀ last ∈ text.toList.getLast?, last ≠ ' ')
    ⟨fun ⟨printable, head, last⟩ => ⟨printable, head, last⟩,
      fun label => ⟨label.printable, label.head, label.last⟩⟩

theorem isLabel_empty : IsLabel "" := by decide

theorem isPrefix_dropTrailing {α : Type} (test : α → Bool) (items : List α) :
    dropTrailing test items <+: items := by
  induction items with
  | nil => exact List.prefix_rfl
  | cons first rest inductionHypothesis =>
      rw [dropTrailing]
      split
      · split
        · exact List.nil_prefix
        · exact (List.prefix_append [first] rest)
      · exact List.prefix_cons_inj first |>.mpr inductionHypothesis

/-- What is left does not end with an element that satisfies the test. -/
theorem getLast?_dropTrailing {α : Type} {test : α → Bool} {items : List α} {last : α}
    (ends : (dropTrailing test items).getLast? = some last) : test last = false := by
  induction items with
  | nil => contradiction
  | cons first rest inductionHypothesis =>
      rw [dropTrailing] at ends
      split at ends
      · split at ends
        · contradiction
        next kept =>
          cases ends
          simpa using kept
      next some =>
        rw [List.getLast?_cons_of_ne_nil some] at ends
        exact inductionHypothesis ends

/-- A trimmed text consists of characters of the text. -/
theorem trim_sublist (text : String) : (trim text).toList.Sublist text.toList := by
  rw [trim, String.toList_ofList]
  exact (isPrefix_dropTrailing isBlank _).sublist.trans (List.dropWhile_sublist _)

/-- A trimmed text does not begin with a blank. -/
theorem isBlank_head_trim {text : String} {first : Char} (begins : (trim text).toList.head? = some first) :
    isBlank first = false := by
  rw [trim, String.toList_ofList] at begins
  obtain ⟨more, parts⟩ := isPrefix_dropTrailing isBlank (text.toList.dropWhile isBlank)
  have same : (text.toList.dropWhile isBlank).head? = some first := by
    rw [← parts, List.head?_append, begins]
    rfl
  have kept := List.head?_dropWhile_not isBlank text.toList
  rw [same] at kept
  simpa using kept

theorem isBlank_getLast_trim {text : String} {last : Char} (ends : (trim text).toList.getLast? = some last) :
    isBlank last = false := by
  rw [trim, String.toList_ofList] at ends
  exact getLast?_dropTrailing ends

end Text

namespace Reply

/-- A reply that passes the check is trimmed, and it is neither empty nor an error token. -/
theorem of_check {command reply text : String} (passes : check command reply = .ok text) :
    text = Text.trim reply ∧ text ≠ "" ∧ text.toList.head? ≠ some '?' := by
  unfold check at passes
  split at passes
  · contradiction
  · contradiction
  next some token =>
    cases passes
    refine ⟨rfl, fun empty => some (by rw [empty]; rfl), fun begins => ?_⟩
    obtain ⟨rest, parts⟩ := List.head?_eq_some_iff.mp begins
    exact token rest parts

/-- What passes the check of a line can name the instrument. -/
theorem isLabel_of_check {limit : Nat} {command reply text : String} (line : Text.IsLine limit reply)
    (passes : check command reply = .ok text) : Text.IsLabel text ∧ text.length ≤ limit := by
  obtain ⟨rfl, _, token⟩ := of_check passes
  have sublist := Text.trim_sublist reply
  refine ⟨⟨fun character member => line.printable character (sublist.subset member), ?_, ?_⟩, ?_⟩
  · rintro first begins
    refine ⟨?_, fun same => token (by rw [← same]; exact begins)⟩
    rintro rfl
    exact absurd (Text.isBlank_head_trim begins) (by decide)
  · rintro last ends rfl
    exact absurd (Text.isBlank_getLast_trim ends) (by decide)
  · have shorter := sublist.length_le
    rw [String.length_toList, String.length_toList] at shorter
    exact shorter.trans line.length_le

/-- A time that is read from a reply is finite and not below zero. -/
theorem isTime_of_seconds {command reply : String} {value : Binary64}
    (read : seconds command reply = .ok value) : value.isTime = true := by
  unfold seconds readWith at read
  cases checked : check command reply with
  | error fault => simp [checked, bind, Except.bind] at read
  | ok text =>
      simp only [checked, bind, Except.bind] at read
      split at read
      next found =>
        cases read
        exact (Option.filter_eq_some_iff.mp found).2
      next => contradiction

end Reply

theorem Except.eq_ok_of_toOption {ε α : Type} {outcome : Except ε α} {value : α}
    (found : outcome.toOption = some value) : outcome = .ok value := by
  cases outcome with
  | error fault => contradiction
  | ok own => exact congrArg Except.ok (Option.some.inj found)

namespace Setting

/-- The values that a setting may have. -/
def IsValid (limit : Nat) : (setting : Setting) → setting.Value → Prop
  | identification, value => Text.IsLabel value ∧ value.length ≤ limit
  | description, value => Text.IsLabel value ∧ value.length ≤ limit
  | triggerState, _ => True
  | period, value => value.isTime
  | output _ quantity, value => quantity.IsProper value

/-- Whatever a line gives to a setting, the setting may have it. -/
theorem isValid_of_told {limit : Nat} {setting : Setting} {outcome : Except Fault String}
    (line : ∀ reply, outcome = .ok reply → Text.IsLine limit reply) {value : setting.Value}
    (told : setting.told? outcome = some value) : setting.IsValid limit value := by
  obtain ⟨reply, replied, read⟩ := Option.bind_eq_some_iff.mp told
  have line := line reply (Except.eq_ok_of_toOption replied)
  have time {command : String} {value : Binary64} (read : (Reply.seconds command reply).toOption = some value) :
      value.isTime = true := Reply.isTime_of_seconds (Except.eq_ok_of_toOption read)
  cases setting with
  | identification => exact Reply.isLabel_of_check line (Except.eq_ok_of_toOption read)
  | description => exact Reply.isLabel_of_check line (Except.eq_ok_of_toOption read)
  | triggerState => trivial
  | period => exact time read
  | output index quantity =>
      cases quantity with
      | width => exact time read
      | delay => exact time read
      | _ => trivial

end Setting

/-- Each text of the identity names the instrument in no more characters than a line has, or is empty. -/
structure Identity.IsValid (limit : Nat) (identity : Identity) : Prop where
  identification : Text.IsLabel identity.identification ∧ identity.identification.length ≤ limit
  description : Text.IsLabel identity.description ∧ identity.description.length ≤ limit

namespace Snapshot

/-- All times of the snapshot are finite and not below zero, and its identity is valid. -/
structure IsValid (limit : Nat) (snapshot : Snapshot) : Prop where
  times : snapshot.protocol.IsProper
  identity : snapshot.identity.IsValid limit

variable {limit : Nat} {snapshot : Snapshot}

/-- A snapshot is valid if every setting has a value that it may have. -/
theorem isValid_iff :
    snapshot.IsValid limit ↔ ∀ setting : Setting, setting.IsValid limit (snapshot.setting setting) := by
  constructor
  · rintro ⟨times, identity⟩ setting
    cases setting with
    | identification => exact identity.identification
    | description => exact identity.description
    | triggerState => trivial
    | period => exact times.interval
    | output index quantity => exact times.quantity index quantity
  · intro valid
    refine ⟨Protocol.isProper_iff.mpr ⟨valid .period, fun index => ?_⟩, valid .identification,
      valid .description⟩
    exact ⟨valid (.output index .delay), valid (.output index .width)⟩

theorem isValid_idle (limit : Nat) : idle.IsValid limit where
  times := by
    have all : ∀ time ∈ idle.protocol.times, time.isTime = true := by decide +kernel
    exact all
  identity := ⟨⟨Text.isLabel_empty, Nat.zero_le limit⟩, ⟨Text.isLabel_empty, Nat.zero_le limit⟩⟩

/-- No line makes a valid snapshot invalid, and neither does an exchange that fails. -/
theorem IsValid.note (valid : snapshot.IsValid limit) (setting : Setting) {outcome : Except Fault String}
    (line : ∀ reply, outcome = .ok reply → Text.IsLine limit reply) :
    (snapshot.note setting.query outcome).IsValid limit := by
  rw [isValid_iff] at valid ⊢
  intro other
  by_cases same : other = setting
  · subst same
    rw [setting_note]
    cases told : other.told? outcome with
    | none => exact valid other
    | some value => exact Setting.isValid_of_told line told
  · rw [setting_note_of_ne snapshot same]
    exact valid other

end Snapshot

end DelayGenerator
