/-
This file shows what a request comes to: a document is read back from every way to escape it, and a
path is refused only if it asks for nothing that is known.
-/

import DelayGenerator.Request
import DelayGenerator.Proofs.Text.Blank
import DelayGenerator.Proofs.Text.Utf8

namespace DelayGenerator.Request

/-- The digits that denote a number below sixteen, the small one and the capital one. -/
def hexDigits (value : Nat) : List Char :=
  [Nat.digitChar value, (Nat.digitChar value).toUpper]

def IsHexDigit (character : Char) : Prop :=
  ∃ value < 16, character ∈ hexDigits value

instance (character : Char) : Decidable (IsHexDigit character) :=
  inferInstanceAs (Decidable (∃ value < 16, character ∈ hexDigits value))

def BeginsWithHexPair : List Char → Prop
  | high :: low :: _ => IsHexDigit high ∧ IsHexDigit low
  | _ => False

/-- The percent sign and two digits that denote the byte. -/
def IsEscape (byte : UInt8) (characters : List Char) : Prop :=
  ∃ high ∈ hexDigits (byte.toNat / 16), ∃ low ∈ hexDigits (byte.toNat % 16), characters = ['%', high, low]

/-- The second characters stand for the first ones in a request. Any character may be escaped, byte by
byte. A percent sign is kept only where no escape could be seen in it. -/
inductive Escapes : (payload encoded : List Char) → Prop
  | done : Escapes [] []
  | kept {character : Char} {payload encoded : List Char}
      (alone : character = '%' → ¬ BeginsWithHexPair encoded) (others : Escapes payload encoded) :
      Escapes (character :: payload) (character :: encoded)
  | escaped {character : Char} {payload encoded : List Char} {escapes : List (List Char)}
      (bytes : List.Forall₂ IsEscape (String.utf8EncodeChar character) escapes)
      (others : Escapes payload encoded) :
      Escapes (character :: payload) (escapes.flatten ++ encoded)

/-- No percent sign is followed by two hexadecimal digits. -/
def HasNoEscape (characters : List Char) : Prop :=
  ∀ after, '%' :: after <:+ characters → ¬ BeginsWithHexPair after

/-- Characters without an escape stand for themselves. -/
theorem HasNoEscape.escapes {characters : List Char} (plain : HasNoEscape characters) :
    Escapes characters characters := by
  induction characters with
  | nil => exact .done
  | cons first others inductionHypothesis =>
      refine .kept (fun sign => plain others (sign ▸ List.suffix_refl _)) (inductionHypothesis ?_)
      exact fun after suffix => plain after (suffix.trans (List.suffix_cons first others))

theorem hexValue?_of_mem_hexDigits {value : Nat} (small : value < 16) {digit : Char}
    (member : digit ∈ hexDigits value) :
    String.utf8EncodeChar digit = [UInt8.ofNat digit.toNat] ∧
      hexValue? (UInt8.ofNat digit.toNat) = some (UInt8.ofNat value) := by
  have all : ∀ value < 16, (hexDigits value).all fun digit =>
      String.utf8EncodeChar digit == [UInt8.ofNat digit.toNat] &&
        hexValue? (UInt8.ofNat digit.toNat) == some (UInt8.ofNat value) := by
    decide
  simpa using List.all_eq_true.mp (all value small) digit member

/-- A byte that denotes a digit is an ASCII character. -/
theorem isHexDigit_of_hexValue? {byte value : UInt8} (denotes : hexValue? byte = some value) :
    byte.toNat < 0x80 ∧ IsHexDigit (Char.ofNat byte.toNat) := by
  have all : ∀ number < 256, hexValue? (UInt8.ofNat number) = none ∨
      number < 0x80 ∧ ∃ value < 16, Char.ofNat number ∈ hexDigits value := by
    decide +kernel
  have one := all byte.toNat byte.toNat_lt
  rw [UInt8.ofNat_toNat, denotes] at one
  exact one.resolve_left nofun

section

variable {byte high low : UInt8} {bytes rest : List UInt8}

/-- A byte stays where no two digits stand behind it. -/
theorem unescape_alone
    (alone : ∀ high low more, rest = high :: low :: more → hexValue? high = none ∨ hexValue? low = none) :
    unescape (byte :: rest) = byte :: unescape rest := by
  match rest with
  | [] => rfl
  | [_] => rfl
  | high :: low :: more =>
      rw [unescape]
      split
      · rcases alone high low more rfl with none | none
        · simp only [none]
        · cases hexValue? high <;> simp only [none]
      · rfl

theorem unescape_other (other : byte ≠ percent) : unescape (byte :: rest) = byte :: unescape rest := by
  match rest with
  | [] => rfl
  | [_] => rfl
  | high :: low :: more => rw [unescape, if_neg (by simpa using other)]

theorem unescape_append (others : ∀ byte ∈ bytes, byte ≠ percent) :
    unescape (bytes ++ rest) = bytes ++ unescape rest := by
  induction bytes with
  | nil => rfl
  | cons first following inductionHypothesis =>
      rw [List.cons_append, unescape_other (others first List.mem_cons_self),
        inductionHypothesis fun byte member => others byte (List.mem_cons_of_mem first member), List.cons_append]

/-- An escape denotes its byte. -/
theorem unescape_escape {escape : List Char} (escapes : IsEscape byte escape) :
    unescape (escape.flatMap String.utf8EncodeChar ++ rest) = byte :: unescape rest := by
  obtain ⟨high, highMember, low, lowMember, rfl⟩ := escapes
  have small := byte.toNat_lt
  obtain ⟨highByte, highValue⟩ := hexValue?_of_mem_hexDigits (by omega) highMember
  obtain ⟨lowByte, lowValue⟩ := hexValue?_of_mem_hexDigits (by omega) lowMember
  have whole : UInt8.ofNat (byte.toNat / 16) * 16 + UInt8.ofNat (byte.toNat % 16) = byte := by
    rw [← UInt8.toNat_inj]
    simp
    omega
  have sign : String.utf8EncodeChar '%' = [percent] := rfl
  simp only [List.flatMap_cons, List.flatMap_nil, sign, highByte, lowByte, List.cons_append, List.nil_append]
  rw [unescape, if_pos (beq_self_eq_true percent), highValue, lowValue]
  simp only [whole]

end

/-- Only the percent sign has the byte of the percent sign. -/
theorem ne_percent_of_mem_utf8EncodeChar {character : Char} (other : character ≠ '%') {byte : UInt8}
    (member : byte ∈ String.utf8EncodeChar character) : byte ≠ percent := by
  rintro rfl
  rcases Nat.lt_or_ge character.toNat 0x80 with low | high
  · rw [Text.utf8EncodeChar_ascii low, List.mem_singleton] at member
    have number := congrArg UInt8.toNat member
    rw [UInt8.toNat_ofNat_of_lt' (show character.toNat < 256 by omega)] at number
    exact other (Char.toNat_inj.mp number.symm)
  · have beyond := Text.high_of_mem_utf8EncodeChar high member
    contradiction

/-- What is read behind a percent sign that is kept begins with no two digits either. -/
theorem beginsWithHexPair_of_bytes {characters : List Char} {high low : UInt8} {more : List UInt8}
    (bytes : characters.flatMap String.utf8EncodeChar = high :: low :: more)
    (isHigh : hexValue? high ≠ none) (isLow : hexValue? low ≠ none) : BeginsWithHexPair characters := by
  obtain ⟨_, denotesHigh⟩ := Option.ne_none_iff_exists'.mp isHigh
  obtain ⟨_, denotesLow⟩ := Option.ne_none_iff_exists'.mp isLow
  obtain ⟨asciiHigh, digitHigh⟩ := isHexDigit_of_hexValue? denotesHigh
  obtain ⟨asciiLow, digitLow⟩ := isHexDigit_of_hexValue? denotesLow
  obtain ⟨others, rfl, remaining⟩ := Text.exists_of_flatMap_utf8EncodeChar asciiHigh bytes
  obtain ⟨rest, rfl, _⟩ := Text.exists_of_flatMap_utf8EncodeChar asciiLow remaining.symm
  exact ⟨digitHigh, digitLow⟩

/-- The bytes of a document are read back, whichever of its characters are escaped. -/
theorem Escapes.unescape {payload encoded : List Char} (escapes : Escapes payload encoded) :
    unescape (encoded.flatMap String.utf8EncodeChar) = payload.flatMap String.utf8EncodeChar := by
  induction escapes with
  | done => rfl
  | @kept character payload encoded alone others inductionHypothesis =>
      rw [List.flatMap_cons, List.flatMap_cons, ← inductionHypothesis]
      by_cases sign : character = '%'
      · subst sign
        refine unescape_alone fun high low more bytes => ?_
        by_contra denotes
        rw [not_or] at denotes
        exact alone rfl (beginsWithHexPair_of_bytes bytes denotes.1 denotes.2)
      · exact unescape_append fun byte member => ne_percent_of_mem_utf8EncodeChar sign member
  | @escaped character payload encoded escapes bytes others inductionHypothesis =>
      rw [List.flatMap_append, List.flatMap_cons, ← inductionHypothesis]
      generalize String.utf8EncodeChar character = encoding at bytes
      induction bytes with
      | nil => rfl
      | cons escape _ inductionHypothesis =>
          rw [List.flatten_cons, List.flatMap_append, List.append_assoc, unescape_escape escape,
            inductionHypothesis, List.cons_append]

/-- A document is read back from what stands for it. -/
theorem payload_of_escapes {document encoded : String} (escapes : Escapes document.toList encoded.toList) :
    payload encoded = document := by
  rw [payload, Text.utf8, escapes.unescape]
  exact Text.decodeUtf8_utf8 document

/-- The names of the parameters that carry a document, with what they ask for. -/
def carriers : List (String × (String → Request)) :=
  [("commit.json=", commit), ("submit.text=", submit), ("set=", set)]

/-- The path does not ask for anything that is known. -/
def IsUnknown (path : String) : Prop :=
  ∀ query, path = "/dg/ctl?" ++ query → query ∉ ["banner", "status.json", "events"] ∧
    ∀ carrier ∈ carriers, ∀ encoded, query ≠ carrier.1 ++ encoded

theorem ofQuery?_carrier {carrier : String × (String → Request)} (known : carrier ∈ carriers) (encoded : String) :
    ofQuery? (carrier.1 ++ encoded) = some (carrier.2 (payload encoded)) := by
  simp only [carriers, List.mem_cons, List.not_mem_nil, or_false] at known
  have others : carrier.1 ++ encoded ≠ "banner" ∧ carrier.1 ++ encoded ≠ "status.json" ∧
      carrier.1 ++ encoded ≠ "events" := by
    simp only [ne_eq, ← String.toList_inj, String.toList_append]
    rcases known with rfl | rfl | rfl <;> simp
  have apart {beginning name : String} (differ : beginning.toList.take 2 ≠ name.toList.take 2)
      (long : 2 ≤ beginning.toList.length ∧ 2 ≤ name.toList.length) :
      Text.after? beginning (name ++ encoded) = none := by
    refine Text.after?_eq_none.mpr fun rest same => differ ?_
    have front := congrArg (fun text : String => text.toList.take 2) same
    simpa only [String.toList_append, List.take_append_of_le_length long.1, List.take_append_of_le_length long.2]
      using front.symm
  simp only [ofQuery?, beq_iff_eq, others, if_false]
  rcases known with rfl | rfl | rfl
  · rw [Text.after?_append]
    rfl
  · rw [apart (by decide) (by decide), Text.after?_append]
    rfl
  · rw [apart (by decide) (by decide), apart (by decide) (by decide), Text.after?_append]
    rfl

theorem ofQuery?_eq_none_iff {query : String} :
    ofQuery? query = none ↔ query ∉ ["banner", "status.json", "events"] ∧
      ∀ carrier ∈ carriers, ∀ encoded, query ≠ carrier.1 ++ encoded := by
  simp only [carriers, List.forall_mem_cons, List.not_mem_nil, false_imp_iff, implies_true, and_true,
    ← Text.after?_eq_none]
  rw [ofQuery?]
  split
  · simp_all
  · split
    · simp_all
    · split <;> simp_all

theorem ofPath?_eq_none_iff {path : String} : ofPath? path = none ↔ IsUnknown path := by
  rw [ofPath?, Option.bind_eq_bind, Option.bind_eq_none_iff, IsUnknown]
  exact forall_congr' fun query => imp_congr Text.after?_eq_some ofQuery?_eq_none_iff

/-- A document comes back from every way to write it into a path, and from itself where no percent sign
in it could begin an escape. A path is refused only if it asks for nothing that is known, and the fault
names the whole path. -/
theorem parse_written :
    (∀ carrier ∈ carriers, ∀ document : String,
      (∀ encoded : String, Escapes document.toList encoded.toList →
        parse ("/dg/ctl?" ++ (carrier.1 ++ encoded)) = .ok (carrier.2 document)) ∧
      (HasNoEscape document.toList →
        parse ("/dg/ctl?" ++ (carrier.1 ++ document)) = .ok (carrier.2 document))) ∧
    ∀ path fault, parse path = .error fault ↔ fault = .unknownRequest path ∧ IsUnknown path := by
  have reads {carrier : String × (String → Request)} (known : carrier ∈ carriers) {document encoded : String}
      (escapes : Escapes document.toList encoded.toList) :
      parse ("/dg/ctl?" ++ (carrier.1 ++ encoded)) = .ok (carrier.2 document) := by
    have found : ofPath? ("/dg/ctl?" ++ (carrier.1 ++ encoded)) = some (carrier.2 document) := by
      rw [ofPath?, Text.after?_append, ← payload_of_escapes escapes]
      exact ofQuery?_carrier known encoded
    rw [parse, found]
  refine ⟨fun carrier known document => ⟨fun encoded escapes => reads known escapes, fun plain =>
    reads known plain.escapes⟩, fun path fault => ?_⟩
  rw [← ofPath?_eq_none_iff, parse]
  cases ofPath? path with
  | none => simp [eq_comm]
  | some request => simp

/-- Characters of two bytes, both kinds of digits, and percent signs of both kinds. -/
theorem parse_written_umlaut :
    parse "/dg/ctl?commit.json=%c3%A9%25+" = .ok (.commit "é%+") ∧
      parse "/dg/ctl?set=7%+%4" = .ok (.set "7%+%4") ∧
      parse "/dg/ctl?bogus" = .error (.unknownRequest "/dg/ctl?bogus") := by
  have escapes : Escapes ['é', '%', '+']
      ([['%', 'c', '3'], ['%', 'A', '9']].flatten ++ ([['%', '2', '5']].flatten ++ ['+'])) :=
    .escaped
      (.cons ⟨'c', by decide, '3', by decide, rfl⟩ (.cons ⟨'A', by decide, '9', by decide, rfl⟩ .nil))
      (.escaped (.cons ⟨'2', by decide, '5', by decide, rfl⟩ .nil) (.kept nofun .done))
  have plain : HasNoEscape "7%+%4".toList := by
    intro after suffix
    have cases : after = ['+', '%', '4'] ∨ after = ['4'] := by simpa [List.suffix_cons_iff] using suffix
    rcases cases with rfl | rfl
    · exact fun pair => absurd pair.1 (by decide)
    · exact id
  have unknown : IsUnknown "/dg/ctl?bogus" := by
    rw [← ofPath?_eq_none_iff]
    decide
  obtain ⟨reads, refuses⟩ := parse_written
  exact ⟨(reads ("commit.json=", commit) (by simp [carriers]) "é%+").1 "%c3%A9%25+" escapes,
    (reads ("set=", set) (by simp [carriers]) "7%+%4").2 plain, (refuses _ _).mpr ⟨rfl, unknown⟩⟩

end DelayGenerator.Request
