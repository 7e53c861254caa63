/-
This file reads back written values: what a value is written as spells this value, in every layout of blanks, but its
numbers are those that a reader takes their texts for.
-/

import DelayGenerator.Proofs.Json.Grammar
import DelayGenerator.Proofs.Json.Reread

namespace DelayGenerator.Json

mutual

/-- The value as a reader sees it who takes each finite number for another one. The other numbers are `null`. -/
def readAs (take : Binary64 → Binary64) : Json → Json
  | .number value => if value.isFinite then .number (take value) else .null
  | .list items => .list (readItemsAs take items)
  | .record members => .record (readMembersAs take members)
  | value => value

def readItemsAs (take : Binary64 → Binary64) : List Json → List Json
  | [] => []
  | item :: rest => readAs take item :: readItemsAs take rest

def readMembersAs (take : Binary64 → Binary64) : List (String × Json) → List (String × Json)
  | [] => []
  | (name, value) :: rest => (name, readAs take value) :: readMembersAs take rest

end

section

variable (take : Binary64 → Binary64)

theorem readAs_integer (value : Int) : readAs take (.integer value) = .integer value := rfl

theorem readAs_text (value : String) : readAs take (.text value) = .text value := rfl

theorem readAs_list (items : List Json) : readAs take (.list items) = .list (readItemsAs take items) := rfl

theorem readAs_record (members : List (String × Json)) :
    readAs take (.record members) = .record (readMembersAs take members) := rfl

theorem readItemsAs_eq_map (items : List Json) : readItemsAs take items = items.map (readAs take) := by
  induction items with
  | nil => rfl
  | cons item others inductionHypothesis => rw [readItemsAs, List.map_cons, inductionHypothesis]

end

mutual

/-- The value is nested less deeply than `depth`, and a machine word holds its whole numbers. -/
def Fits : (depth : Nat) → Json → Prop
  | _, null => True
  | _, bool _ => True
  | _, integer value => IsWord value
  | _, number _ => True
  | _, text _ => True
  | depth, list items => 1 < depth ∧ FitItems (depth - 1) items
  | depth, record members => 1 < depth ∧ FitMembers (depth - 1) members

def FitItems : (depth : Nat) → List Json → Prop
  | _, [] => True
  | depth, item :: others => Fits depth item ∧ FitItems depth others

def FitMembers : (depth : Nat) → List (String × Json) → Prop
  | _, [] => True
  | depth, (_, value) :: others => Fits depth value ∧ FitMembers depth others

end

theorem fitItems_iff {depth : Nat} {items : List Json} :
    FitItems depth items ↔ ∀ item ∈ items, Fits depth item := by
  induction items with
  | nil => simp [FitItems]
  | cons item others inductionHypothesis => simp [FitItems, inductionHypothesis]

/-- A layout that puts nothing but blanks between the parts of a value. -/
structure Spacing.IsBlank (spacing : Spacing) : Prop where
  lineBreak : ∀ depth, IsSpace (spacing.lineBreak depth)
  separator : ∃ space, spacing.separator = ':' :: space ∧ IsSpace space

theorem Spacing.isBlank_pretty : Spacing.pretty.IsBlank where
  lineBreak depth := by
    intro character member
    rcases List.mem_cons.mp member with rfl | member
    · rfl
    · rw [List.eq_of_mem_replicate member]
      rfl
  separator := ⟨[' '], rfl, by simp [IsSpace, isSpace]⟩

theorem Spacing.isBlank_compact : Spacing.compact.IsBlank where
  lineBreak _ := isSpace_nil
  separator := ⟨[], rfl, isSpace_nil⟩

/-- Blanks do not go on with a number. -/
theorem EndsNumber.append {space rest : List Char} (isSpace : IsSpace space) (ends : EndsNumber rest) :
    EndsNumber (space ++ rest) := by
  cases space with
  | nil => exact ends
  | cons first others =>
      have blank := isSpace first List.mem_cons_self
      refine endsNumber_cons ?_ ?_ ?_ ?_ _ <;>
        (simp only [Json.isSpace, Bool.or_eq_true, beq_iff_eq] at blank
         rcases blank with ((rfl | rfl) | rfl) | rfl <;> decide)

/-- A number begins with a digit behind its sign. -/
theorem head_of_readNumber {negative : Bool} {characters rest : List Char} {value : Json}
    (read : readNumber negative characters = .ok (value, rest)) :
    ∃ first more, characters = first :: more ∧ first.isDigit = true := by
  obtain ⟨_, number, _⟩ := of_bind read
  obtain ⟨_, whole, _⟩ := of_bind number
  obtain ⟨_, digits, _⟩ := of_bind whole
  cases characters with
  | nil => contradiction
  | cons first more =>
      refine ⟨first, more, rfl, ?_⟩
      by_contra other
      rw [Bool.not_eq_true] at other
      simp [someDigits, Decimal.spanDigits, List.span_eq_takeWhile_dropWhile, other] at digits

theorem isSpace_of_isDigit {character : Char} (digit : character.isDigit = true) :
    isSpace character = false := by
  by_contra blank
  simp only [isSpace, Bool.not_eq_false, Bool.or_eq_true, beq_iff_eq] at blank
  rcases blank with ((rfl | rfl) | rfl) | rfl <;> contradiction

section

variable {depth : Nat} {space rest : List Char}

/-- A sign and digits behind blanks spell a number. -/
theorem spells_signed (isSpace : IsSpace space) {negative : Bool} {digits : List Char} {value : Json}
    (read : readNumber negative (digits ++ rest) = .ok (value, rest)) :
    Spells depth (space ++ (Binary64.sign negative ++ digits ++ rest)) value rest := by
  cases negative with
  | true => exact .minus (skipSpace_append isSpace rfl _) read
  | false =>
      obtain ⟨first, more, same, digit⟩ := head_of_readNumber read
      change Spells depth (space ++ (digits ++ rest)) value rest
      rw [same] at read ⊢
      exact .digits (skipSpace_append isSpace (isSpace_of_isDigit digit) _) digit read

theorem skipSpace_quotedText (isSpace : IsSpace space) (value : String) :
    skipSpace (space ++ (quotedText value ++ rest)) =
      '"' :: (value.toList.flatMap escaped ++ '"' :: rest) := by
  rw [quotedText, List.cons_append, List.cons_append, List.append_assoc]
  exact skipSpace_append isSpace rfl _

theorem spells_quotedText (isSpace : IsSpace space) (value : String) :
    Spells depth (space ++ (quotedText value ++ rest)) (.text value) rest :=
  .text (skipSpace_quotedText isSpace value) (readText_quoted value rest)

theorem spells_numberText (isSpace : IsSpace space) (ends : EndsNumber rest) (value : Binary64) :
    Spells depth (space ++ (numberText value ++ rest)) (readAs reread (.number value)) rest := by
  cases value with
  | nan => exact .null (skipSpace_append isSpace rfl _) rfl
  | infinite negative => exact .null (skipSpace_append isSpace rfl _) rfl
  | finite negative rank =>
      rw [numberText_finite]
      exact spells_signed isSpace (readNumber_magnitudeText negative rank ends)

theorem spells_integerText (isSpace : IsSpace space) (ends : EndsNumber rest) {value : Int}
    (isWord : IsWord value) :
    Spells depth (space ++ (Binary64.integerText value ++ rest)) (.integer value) rest := by
  have spells : Spells depth _ (.integer value) rest :=
    spells_signed isSpace (readNumber_allDigits isWord ends)
  rw [Binary64.integerText]
  split
  next below => simpa [Binary64.sign, below] using spells
  next natural => simpa [Binary64.sign, natural] using spells

/-- A value never begins with a closing bracket. -/
theorem Spells.head {depth : Nat} {characters rest : List Char} {value : Json}
    (spells : Spells depth characters value rest) :
    ∃ first more, skipSpace characters = first :: more ∧ first ≠ ']' := by
  cases spells with
  | null begins => exact ⟨_, _, begins, by decide⟩
  | yes begins => exact ⟨_, _, begins, by decide⟩
  | no begins => exact ⟨_, _, begins, by decide⟩
  | minus begins => exact ⟨_, _, begins, by decide⟩
  | digits begins digit =>
      refine ⟨_, _, begins, ?_⟩
      rintro rfl
      contradiction
  | text begins => exact ⟨_, _, begins, by decide⟩
  | list begins => exact ⟨_, _, begins, by decide⟩
  | record begins => exact ⟨_, _, begins, by decide⟩

/-- The first item of a list. -/
theorem Spells.firstItem {characters more : List Char} {item : Json} {others : List Json}
    (value : Spells depth characters item more) (later : SpellsItems depth false more others rest) :
    SpellsItems depth true characters (item :: others) rest := by
  obtain ⟨first, behind, begins, other⟩ := value.head
  refine .item ?_ (value.congr (skipSpace_skipSpace characters).symm) later
  rw [nextItem?, begins]
  split <;> simp_all

/-- Another item of a list, behind a comma. -/
theorem Spells.nextItem {characters more : List Char} {item : Json} {others : List Json}
    (value : Spells depth characters item more) (later : SpellsItems depth false more others rest) :
    SpellsItems depth false (',' :: characters) (item :: others) rest := by
  obtain ⟨first, behind, begins, other⟩ := value.head
  have comma : skipSpace (',' :: characters) = ',' :: characters := rfl
  refine .item ?_ (value.congr (skipSpace_skipSpace characters).symm) later
  simp only [nextItem?, comma]
  split
  next same => contradiction
  next same => simp at same
  next same =>
    obtain ⟨rfl, rfl⟩ := List.cons.inj same
    simp only [begins]
    split <;> simp_all

/-- The closing bracket of a list. -/
theorem spellsItems_close (isSpace : IsSpace space) (isFirst : Bool) :
    SpellsItems depth isFirst (space ++ ']' :: rest) [] rest := by
  have bracket : skipSpace (space ++ ']' :: rest) = ']' :: rest := skipSpace_append isSpace rfl _
  exact .close (by simp only [nextItem?, bracket]) (by simp only [closeList, bracket])

theorem colon_cons (characters : List Char) : colon (':' :: characters) = .ok characters := rfl

/-- The first member of a record. -/
theorem Spells.firstMember (isSpace : IsSpace space) (name : String) {characters more : List Char}
    {value : Json} {others : List (String × Json)} (spells : Spells depth characters value more)
    (later : SpellsMembers depth false more others rest) :
    SpellsMembers depth true (space ++ (quotedText name ++ ':' :: characters))
      ((name, value) :: others) rest := by
  refine .member ?_ (colon_cons characters) spells later
  simp only [nextName?, skipSpace_quotedText isSpace, readText_quoted, if_true, bind, Except.bind]

/-- Another member of a record, behind a comma. -/
theorem Spells.nextMember (isSpace : IsSpace space) (name : String) {characters more : List Char}
    {value : Json} {others : List (String × Json)} (spells : Spells depth characters value more)
    (later : SpellsMembers depth false more others rest) :
    SpellsMembers depth false (',' :: (space ++ (quotedText name ++ ':' :: characters)))
      ((name, value) :: others) rest := by
  have comma : skipSpace (',' :: (space ++ (quotedText name ++ ':' :: characters))) =
      ',' :: (space ++ (quotedText name ++ ':' :: characters)) := rfl
  refine .member ?_ (colon_cons characters) spells later
  simp only [nextName?, comma, skipSpace_quotedText isSpace, readText_quoted, Bool.false_eq_true, if_false,
    bind, Except.bind]

/-- The closing brace of a record. -/
theorem spellsMembers_close (isSpace : IsSpace space) (isFirst : Bool) :
    SpellsMembers depth isFirst (space ++ '\x7d' :: rest) [] rest := by
  have brace : skipSpace (space ++ '\x7d' :: rest) = '\x7d' :: rest := skipSpace_append isSpace rfl _
  exact .close (by simp only [nextName?, brace])

end

/-- What stands behind an item: a comma and the other items, if there are any. -/
def moreItems (spacing : Spacing) (level : Nat) : List Json → List Char
  | [] => []
  | item :: others => ',' :: writeItems spacing level (item :: others)

/-- What stands behind a member: a comma and the other members, if there are any. -/
def moreMembers (spacing : Spacing) (level : Nat) : List (String × Json) → List Char
  | [] => []
  | member :: others => ',' :: writeMembers spacing level (member :: others)

section

variable (spacing : Spacing) (level : Nat)

theorem writeItems_cons (item : Json) (others : List Json) :
    writeItems spacing level (item :: others) =
      spacing.lineBreak level ++ (write spacing level item ++ moreItems spacing level others) := by
  cases others with
  | nil => rw [writeItems, moreItems, List.append_nil]
  | cons next others =>
      rw [writeItems, moreItems, List.append_assoc]
      exact List.cons_ne_nil _ _

theorem writeMembers_cons (name : String) (value : Json) (others : List (String × Json)) :
    writeMembers spacing level ((name, value) :: others) =
      spacing.lineBreak level ++ (quotedText name ++ (spacing.separator ++ (write spacing level value ++
        moreMembers spacing level others))) := by
  cases others with
  | nil => simp only [writeMembers, moreMembers, List.append_nil, List.append_assoc]
  | cons next others =>
      rw [writeMembers, moreMembers]
      · simp only [List.append_assoc]
      · exact List.cons_ne_nil _ _

variable {spacing}

theorem write_list (isBlank : spacing.IsBlank) (items : List Json) :
    ∃ tail, IsSpace tail ∧ write spacing level (.list items) =
      '[' :: (writeItems spacing (level + 1) items ++ (tail ++ [']'])) := by
  cases items with
  | nil => exact ⟨[], isSpace_nil, by rw [write, writeItems]; rfl⟩
  | cons item others =>
      refine ⟨spacing.lineBreak level, isBlank.lineBreak level, ?_⟩
      rw [write, List.cons_append, List.cons_append, List.append_assoc]

theorem write_record (isBlank : spacing.IsBlank) (members : List (String × Json)) :
    ∃ tail, IsSpace tail ∧ write spacing level (.record members) =
      '\x7b' :: (writeMembers spacing (level + 1) members ++ (tail ++ ['\x7d'])) := by
  cases members with
  | nil => exact ⟨[], isSpace_nil, by rw [write, writeMembers]; rfl⟩
  | cons member others =>
      refine ⟨spacing.lineBreak level, isBlank.lineBreak level, ?_⟩
      rw [write, List.cons_append, List.cons_append, List.append_assoc]

/-- A comma and a closing bracket or brace end a number. -/
theorem endsNumber_mark {mark : Char} (isMark : mark ∈ [',', ']', '\x7d']) (rest : List Char) :
    EndsNumber (mark :: rest) := by
  simp only [List.mem_cons, List.not_mem_nil, or_false] at isMark
  rcases isMark with rfl | rfl | rfl <;> exact endsNumber_cons rfl (by decide) (by decide) (by decide) _

theorem endsNumber_moreItems (items : List Json) {rest : List Char} (ends : EndsNumber rest) :
    EndsNumber (moreItems spacing level items ++ rest) := by
  cases items with
  | nil => exact ends
  | cons item others => exact endsNumber_mark List.mem_cons_self _

theorem endsNumber_moreMembers (members : List (String × Json)) {rest : List Char} (ends : EndsNumber rest) :
    EndsNumber (moreMembers spacing level members ++ rest) := by
  cases members with
  | nil => exact ends
  | cons member others => exact endsNumber_mark List.mem_cons_self _

end

mutual

/-- A value that has been written is spelled by its text, whatever blanks stand around it. -/
theorem spells_write {spacing : Spacing} (isBlank : spacing.IsBlank) (level : Nat) {depth : Nat}
    {space rest : List Char} (isSpace : IsSpace space) (ends : EndsNumber rest) :
    (value : Json) → Fits depth value →
      Spells depth (space ++ (write spacing level value ++ rest)) (readAs reread value) rest
  | .null, _ => .null (skipSpace_append isSpace rfl _) rfl
  | .bool true, _ => .yes (skipSpace_append isSpace rfl _) rfl
  | .bool false, _ => .no (skipSpace_append isSpace rfl _) rfl
  | .integer _, fits => spells_integerText isSpace ends fits
  | .number value, _ => spells_numberText isSpace ends value
  | .text value, _ => spells_quotedText isSpace value
  | .list items, fits => by
    obtain ⟨tail, isTail, same⟩ := write_list level isBlank items
    rw [same, List.cons_append, List.append_assoc, List.append_assoc]
    have inside := (spellsItems_write isBlank (level + 1) isTail rest items fits.2).1
    exact .list (skipSpace_append isSpace rfl _) fits.1 inside
  | .record members, fits => by
    obtain ⟨tail, isTail, same⟩ := write_record level isBlank members
    rw [same, List.cons_append, List.append_assoc, List.append_assoc]
    have inside := (spellsMembers_write isBlank (level + 1) isTail rest members fits.2).1
    exact .record (skipSpace_append isSpace rfl _) fits.1 inside

theorem spellsItems_write {spacing : Spacing} (isBlank : spacing.IsBlank) (level : Nat) {depth : Nat}
    {tail : List Char} (isTail : IsSpace tail) (rest : List Char) :
    (items : List Json) → FitItems depth items →
      SpellsItems depth true (writeItems spacing level items ++ (tail ++ ([']'] ++ rest)))
        (readItemsAs reread items) rest ∧
      SpellsItems depth false (moreItems spacing level items ++ (tail ++ ([']'] ++ rest)))
        (readItemsAs reread items) rest
  | [], _ => ⟨spellsItems_close isTail true, spellsItems_close isTail false⟩
  | item :: others, fits => by
    have ends : EndsNumber (moreItems spacing level others ++ (tail ++ ([']'] ++ rest))) :=
      endsNumber_moreItems level others (.append isTail (endsNumber_mark (by decide) _))
    have value := spells_write isBlank level (isBlank.lineBreak level) ends item fits.1
    have later := (spellsItems_write isBlank level isTail rest others fits.2).2
    rw [moreItems, writeItems_cons]
    simp only [List.cons_append, List.append_assoc]
    exact ⟨value.firstItem later, value.nextItem later⟩

theorem spellsMembers_write {spacing : Spacing} (isBlank : spacing.IsBlank) (level : Nat) {depth : Nat}
    {tail : List Char} (isTail : IsSpace tail) (rest : List Char) :
    (members : List (String × Json)) → FitMembers depth members →
      SpellsMembers depth true (writeMembers spacing level members ++ (tail ++ (['\x7d'] ++ rest)))
        (readMembersAs reread members) rest ∧
      SpellsMembers depth false (moreMembers spacing level members ++ (tail ++ (['\x7d'] ++ rest)))
        (readMembersAs reread members) rest
  | [], _ => ⟨spellsMembers_close isTail true, spellsMembers_close isTail false⟩
  | (name, value) :: others, fits => by
    obtain ⟨space, separator, isSpace⟩ := isBlank.separator
    have ends : EndsNumber (moreMembers spacing level others ++ (tail ++ (['\x7d'] ++ rest))) :=
      endsNumber_moreMembers level others (.append isTail (endsNumber_mark (by decide) _))
    have spells := spells_write isBlank level isSpace ends value fits.1
    have later := (spellsMembers_write isBlank level isTail rest others fits.2).2
    rw [moreMembers, writeMembers_cons, separator]
    simp only [List.cons_append, List.append_assoc]
    exact ⟨spells.firstMember (isBlank.lineBreak level) name later,
      spells.nextMember (isBlank.lineBreak level) name later⟩

end

/-- A written text is the value again, apart from its numbers. -/
theorem parse_write {spacing : Spacing} (isBlank : spacing.IsBlank) (level : Nat) {value : Json}
    (fits : Fits depthLimit value) :
    parse (String.ofList (write spacing level value)) = .ok (readAs reread value) := by
  have spells := spells_write isBlank level isSpace_nil endsNumber_nil value fits
  rw [List.nil_append, List.append_nil, ← read_eq_ok_iff] at spells
  rw [parse, String.toList_ofList, spells]
  rfl

theorem parse_pretty {value : Json} (fits : Fits depthLimit value) :
    parse value.pretty = .ok (readAs reread value) :=
  parse_write Spacing.isBlank_pretty 0 fits

theorem parse_compact {value : Json} (fits : Fits depthLimit value) :
    parse value.compact = .ok (readAs reread value) :=
  parse_write Spacing.isBlank_compact 0 fits

end DelayGenerator.Json
