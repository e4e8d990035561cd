import LanguageHub.Proofs.Json.Sorting

/-!
# The texts of values

The grammar of JSON texts, in which the members of an object are those of the value in the order in
which they are written, under distinct names. Whoever reads a text along the grammar reads the
value that it is the text of, with the members of every object sorted (`Stands.readValue`).

The grammar has one level of containers for each step of `Stands`, since the readers of items and
members are loops around a reader for the level below.
-/

namespace LanguageHub.Json

variable {cs rest : List Char} {v : Json} {levels : Nat}

/-! ### The grammar -/

/-- A text stands at the front of some characters, and others remain behind it. -/
abbrev Standing (α : Type) := α → List Char → List Char → Prop

/-- The texts of values without members and items. A number is an integer if it is written without
fraction and exponent, not as negative zero, and fits a 64-bit word. -/
inductive StandsScalar : Standing Json where
  | null (rest : List Char) : StandsScalar .null ('n' :: 'u' :: 'l' :: 'l' :: rest) rest
  | isTrue (rest : List Char) : StandsScalar (.bool true) ('t' :: 'r' :: 'u' :: 'e' :: rest) rest
  | isFalse (rest : List Char) :
      StandsScalar (.bool false) ('f' :: 'a' :: 'l' :: 's' :: 'e' :: rest) rest
  | text {s : String} {cs rest : List Char} (scan : scanString cs = .ok (s, rest)) :
      StandsScalar (.text s) ('"' :: cs) rest
  | integer {n : Int} {rest : List Char} (word : IsWord n) (stops : Stops rest) :
      StandsScalar (.ofInt n) ((toString n).toList ++ rest) rest
  | float {x : Float} {cs rest : List Char} (scan : scanNumber false cs = .ok (.float x, rest)) :
      StandsScalar (.number (.float x)) cs rest
  | negative {x : Float} {cs rest : List Char}
      (scan : scanNumber true cs = .ok (.float x, rest)) :
      StandsScalar (.number (.float x)) ('-' :: cs) rest

/-- What separates an item from those before it: a comma, unless it is the first one. -/
def Separates (isFirst : Bool) (cs behind : List Char) : Prop :=
  if isFirst then cs = behind else skipSpace cs = ',' :: behind

/-- Items with the bracket that closes their list. -/
inductive StandItems (P : Standing Json) : Bool → Standing (List Json) where
  | close {isFirst : Bool} {cs rest : List Char} (close : skipSpace cs = ']' :: rest) :
      StandItems P isFirst [] cs rest
  | item {isFirst : Bool} {v : Json} {items : List Json} {cs text after rest : List Char}
      (separated : Separates isFirst cs text) (value : P v (skipSpace text) after)
      (more : StandItems P false items after rest) : StandItems P isFirst (v :: items) cs rest

/-- Members with the brace that closes their object. -/
inductive StandMembers (P : Standing Json) : Bool → Standing (List (String × Json)) where
  | close {isFirst : Bool} {cs rest : List Char} (close : skipSpace cs = '\x7d' :: rest) :
      StandMembers P isFirst [] cs rest
  | member {isFirst : Bool} {name : String} {v : Json} {members : List (String × Json)}
      {cs front inside behind text after rest : List Char} (separated : Separates isFirst cs front)
      (quote : skipSpace front = '"' :: inside) (named : scanString inside = .ok (name, behind))
      (colon : skipSpace behind = ':' :: text) (value : P v (skipSpace text) after)
      (more : StandMembers P false members after rest) :
      StandMembers P isFirst ((name, v) :: members) cs rest

/-- Texts with one level of containers more. -/
inductive StandsAround (P : Standing Json) : Standing Json where
  | scalar {v : Json} {cs rest : List Char} (stands : StandsScalar v cs rest) :
      StandsAround P v cs rest
  | array {items : List Json} {cs rest : List Char} (stands : StandItems P true items cs rest) :
      StandsAround P (.array items) ('[' :: cs) rest
  | object {members : List (String × Json)} {cs rest : List Char}
      (distinct : (members.map (·.1)).Nodup) (stands : StandMembers P true members cs rest) :
      StandsAround P (.object members) ('\x7b' :: cs) rest

/-- The texts of values with at most so many levels of containers. -/
def Stands : Nat → Standing Json
  | 0 => StandsScalar
  | levels + 1 => StandsAround (Stands levels)

/-- The whole of a text is the text of a value. -/
def IsText (levels : Nat) (v : Json) (text : String) : Prop :=
  ∃ rest, Stands levels v (skipSpace text.toList) rest ∧ skipSpace rest = []

/-! ### Where texts begin and end -/

/-- A number begins with a digit, behind its sign. -/
theorem exists_digit_of_scanNumber {negative : Bool} {n : Number}
    (h : scanNumber negative cs = .ok (n, rest)) :
    ∃ c more, cs = c :: more ∧ c.isDigit = true := by
  obtain ⟨⟨t, after⟩, scan, -⟩ := eq_ok_of_bind h
  cases cs with
  | nil => cases scan
  | cons c more =>
    refine ⟨c, more, rfl, ?_⟩
    by_contra digit
    have none : ((c :: more).span Char.isDigit).1 = [] := by
      rw [List.span_eq_takeWhile_dropWhile]
      exact List.takeWhile_cons_of_neg digit
    simp only [scanNumberText, none] at scan
    cases scan

/-- The text begins with a token that closes no list. -/
def Begins (cs : List Char) : Prop := ∃ c more, cs = c :: more ∧ isSpace c = false ∧ c ≠ ']'

theorem begins_of_isDigit {c : Char} (digit : c.isDigit = true) (more : List Char) :
    Begins (c :: more) := by
  refine ⟨c, more, rfl, Bool.eq_false_iff.mpr fun space ↦ ?_, ?_⟩
  · simp only [isSpace, Bool.or_eq_true, beq_iff_eq] at space
    rcases space with ((rfl | rfl) | rfl) | rfl <;> exact absurd digit (by decide)
  · rintro rfl
    exact absurd digit (by decide)

theorem StandsScalar.begins (stands : StandsScalar v cs rest) : Begins cs := by
  cases stands with
  | null | isTrue | isFalse | text | negative => exact ⟨_, _, rfl, by decide, by decide⟩
  | integer word _ =>
    have plain : Plain 0 (.ofInt _) := word
    obtain ⟨c, more, htext, token, bracket⟩ := plain.readsBack.begins
    exact ⟨c, more ++ rest, congrArg (· ++ rest) htext, token, bracket⟩
  | float scan =>
    obtain ⟨c, more, rfl, digit⟩ := exists_digit_of_scanNumber scan
    exact begins_of_isDigit digit more

theorem Stands.begins (stands : Stands levels v cs rest) : Begins cs := by
  cases levels with
  | zero => exact StandsScalar.begins stands
  | succ levels =>
    cases stands with
    | scalar stands => exact stands.begins
    | array | object => exact ⟨_, _, rfl, by decide, by decide⟩

/-- White space in front of a text was skipped. -/
theorem Begins.skipSpace (begins : Begins cs) : skipSpace cs = cs := by
  obtain ⟨c, more, rfl, token, -⟩ := begins
  exact List.dropWhile_cons_of_neg (by simp [token])

theorem length_of_scanString {s : String} (h : scanString cs = .ok (s, rest)) :
    rest.length < cs.length :=
  length_of_skipStringFrom (skipString_of_scanString h)

theorem StandsScalar.length_lt (stands : StandsScalar v cs rest) : rest.length < cs.length := by
  cases stands with
  | null | isTrue | isFalse => simp only [List.length_cons]; omega
  | text scan =>
    have inside := length_of_scanString scan
    rw [List.length_cons]
    omega
  | @integer n rest word _ =>
    have plain : Plain 0 (.ofInt n) := word
    obtain ⟨c, more, htext, -, -⟩ := plain.readsBack.begins
    have text : (toString n).toList = c :: more := htext
    rw [text, List.length_append, List.length_cons]
    omega
  | float scan => exact length_of_skipNumber (skipNumber_of_scanNumber scan)
  | negative scan =>
    have digits := length_of_skipNumber (skipNumber_of_scanNumber scan)
    rw [List.length_cons]
    omega

theorem Separates.length_le {isFirst : Bool} {behind : List Char}
    (separated : Separates isFirst cs behind) : behind.length ≤ cs.length := by
  cases isFirst with
  | true => exact Nat.le_of_eq (congrArg List.length (Eq.symm separated))
  | false => exact Nat.le_of_lt (length_of_skipSpace_eq separated)

/-- Where an item follows, the list is not closed. -/
theorem Separates.ne_bracket {isFirst : Bool} {text : List Char}
    (separated : Separates isFirst cs text) (begins : Begins (skipSpace text)) :
    skipSpace cs ≠ ']' :: rest := by
  intro close
  cases isFirst with
  | true =>
    obtain rfl : cs = text := separated
    obtain ⟨c, more, item, -, bracket⟩ := begins
    rw [close] at item
    exact bracket (List.cons.inj item).1.symm
  | false =>
    have comma : skipSpace cs = ',' :: text := separated
    rw [close] at comma
    cases comma

section Lengths

variable {P : Standing Json} (shorter : ∀ {v cs rest}, P v cs rest → rest.length < cs.length)
include shorter

/-- Each item takes a character at least, and so does the bracket. -/
theorem StandItems.length_lt {isFirst : Bool} {items : List Json}
    (stands : StandItems P isFirst items cs rest) : items.length + rest.length < cs.length := by
  induction stands with
  | close close =>
    rw [List.length_nil, Nat.zero_add]
    exact length_of_skipSpace_eq close
  | @item _ _ _ _ text _ _ separated value _ ih =>
    have front := separated.length_le
    have space := length_skipSpace_le text
    have first := shorter value
    rw [List.length_cons]
    omega

/-- Each member takes a character at least, and so does the brace. -/
theorem StandMembers.length_lt {isFirst : Bool} {members : List (String × Json)}
    (stands : StandMembers P isFirst members cs rest) :
    members.length + rest.length < cs.length := by
  induction stands with
  | close close =>
    rw [List.length_nil, Nat.zero_add]
    exact length_of_skipSpace_eq close
  | @member _ _ _ _ _ _ _ _ text _ _ separated quote named colon value _ ih =>
    have front := separated.length_le
    have inside := length_of_skipSpace_eq quote
    have name := length_of_scanString named
    have behind := length_of_skipSpace_eq colon
    have space := length_skipSpace_le text
    have first := shorter value
    rw [List.length_cons]
    omega

end Lengths

theorem Stands.length_lt (stands : Stands levels v cs rest) : rest.length < cs.length := by
  induction levels generalizing v cs rest with
  | zero => exact StandsScalar.length_lt stands
  | succ levels ih =>
    cases stands with
    | scalar stands => exact stands.length_lt
    | array stands =>
      have items := stands.length_lt ih
      rw [List.length_cons]
      omega
    | object _ stands =>
      have members := stands.length_lt ih
      rw [List.length_cons]
      omega

/-! ### Loops over items and members -/

/-- What is read from a text is what is made of its value, if anything is, and `rest` is left. -/
def Agrees {α : Type} (x : Except Fault (α × List Char)) (y : Except Mismatch α)
    (rest : List Char) : Prop :=
  ∀ a after, x = .ok (a, after) ↔ y = .ok a ∧ after = rest

namespace Agrees

variable {α β : Type} {x : Except Fault (α × List Char)} {y : Except Mismatch α}

theorem ok (a : α) (rest : List Char) : Agrees (.ok (a, rest)) (.ok a) rest := fun b after ↦
  ⟨fun h ↦ by cases h; exact ⟨rfl, rfl⟩, fun ⟨h, h'⟩ ↦ by cases h; cases h'; rfl⟩

/-- Nothing is read where nothing is made of the value. -/
theorem error (hx : ∀ p, x ≠ .ok p) (hy : ∀ a, y ≠ .ok a) : Agrees x y rest := fun a _ ↦
  ⟨fun h ↦ absurd h (hx _), fun h ↦ absurd h.1 (hy a)⟩

theorem refused (fault : Fault) (mismatch : Mismatch) (rest : List Char) :
    Agrees (.error fault : Except Fault (α × List Char)) (.error mismatch) rest :=
  .error (fun _ h ↦ by cases h) fun _ h ↦ by cases h

theorem eq_ok (agrees : Agrees x y rest) {a : α} (h : y = .ok a) : x = .ok (a, rest) :=
  (agrees a rest).mpr ⟨h, rfl⟩

/-- It does not matter why nothing is made of the value. -/
theorem congr {y' : Except Mismatch α} (agrees : Agrees x y rest)
    (same : ∀ a, y = .ok a ↔ y' = .ok a) : Agrees x y' rest := fun a after ↦
  (agrees a after).trans (and_congr_left fun _ ↦ same a)

/-- What goes on behind a text agrees if each part does. -/
theorem bind {f : α × List Char → Except Fault (β × List Char)} {g : α → Except Mismatch β}
    {mid : List Char} (agrees : Agrees x y mid)
    (goesOn : ∀ a, y = .ok a → Agrees (f (a, mid)) (g a) rest) :
    Agrees (x >>= f) (y >>= g) rest := by
  intro b after
  constructor
  · intro h
    obtain ⟨⟨a, left⟩, hx, h⟩ := eq_ok_of_bind h
    obtain ⟨hy, rfl⟩ := (agrees a left).mp hx
    obtain ⟨hg, hafter⟩ := (goesOn a hy b after).mp h
    rw [hy]
    exact ⟨hg, hafter⟩
  · rintro ⟨h, rfl⟩
    obtain ⟨a, hy, hg⟩ := eq_ok_of_bind h
    rw [agrees.eq_ok hy]
    exact (goesOn a hy).eq_ok hg

theorem map (agrees : Agrees x y rest) (f : α → β) :
    Agrees (x.map fun (a, r) ↦ (f a, r)) (y.map f) rest := by
  intro b after
  constructor
  · intro h
    obtain ⟨⟨a, left⟩, hx, h⟩ := eq_ok_of_map h
    obtain ⟨hy, rfl⟩ := (agrees a left).mp hx
    cases h
    rw [hy]
    exact ⟨rfl, rfl⟩
  · rintro ⟨h, rfl⟩
    obtain ⟨a, hy, rfl⟩ := eq_ok_of_map h
    rw [agrees.eq_ok hy]
    rfl

end Agrees

/-- What stands where an item or the end of a list is expected. -/
theorem nextItem_of_close {isFirst : Bool} (close : skipSpace cs = ']' :: rest) :
    nextItem isFirst cs = .ok (false, rest) := by
  simp [nextItem, close]

theorem nextItem_of_begins {isFirst : Bool} {text : List Char}
    (separated : Separates isFirst cs text) (begins : Begins (skipSpace text)) :
    nextItem isFirst cs = .ok (true, skipSpace text) := by
  obtain ⟨c, more, htext, -, bracket⟩ := begins
  cases isFirst with
  | true =>
    obtain rfl : cs = text := separated
    simp [nextItem, htext, bracket]
  | false =>
    have comma : skipSpace cs = ',' :: text := separated
    simp [nextItem, comma, htext, bracket]

/-- What stands where a member or the end of an object is expected. -/
theorem nextMember_of_close {isFirst : Bool} (close : skipSpace cs = '\x7d' :: rest) :
    nextMember isFirst cs = .ok (false, rest) := by
  simp [nextMember, close]

theorem nextMember_of_quote {isFirst : Bool} {front inside : List Char}
    (separated : Separates isFirst cs front) (quote : skipSpace front = '"' :: inside) :
    nextMember isFirst cs = .ok (true, inside) := by
  cases isFirst with
  | true =>
    obtain rfl : cs = front := separated
    simp [nextMember, quote]
  | false =>
    have comma : skipSpace cs = ',' :: front := separated
    simp [nextMember, comma, quote]

theorem readColon_of_colon {behind text : List Char} (colon : skipSpace behind = ':' :: text) :
    readColon behind = .ok text := by
  simp [readColon, colon]

section Loops

variable {σ : Type} {P : Standing Json} {isFirst : Bool} {steps : Nat}

/-- Items are read one after another. -/
theorem StandItems.agrees {items : List Json} (stands : StandItems P isFirst items cs rest)
    {item : σ → Reader σ} {step : σ → Json → Except Mismatch σ}
    (begins : ∀ {v cs rest}, P v cs rest → Begins cs)
    (agrees : ∀ {v cs rest} s, P v cs rest → Agrees (item s cs) (step s v) rest)
    (enough : items.length < steps) (s : σ) :
    Agrees (readItems item steps isFirst s cs) (items.foldlM step s) rest := by
  induction stands generalizing steps s with
  | close close =>
    obtain ⟨steps, rfl⟩ := Nat.exists_eq_succ_of_ne_zero (Nat.ne_of_gt enough)
    rw [readItems, nextItem_of_close close]
    exact .ok s _
  | item separated value _ ih =>
    obtain ⟨steps, rfl⟩ := Nat.exists_eq_succ_of_ne_zero (Nat.ne_zero_of_lt enough)
    rw [readItems, nextItem_of_begins separated (begins value), List.foldlM_cons]
    exact (agrees s value).bind fun t _ ↦ ih (Nat.lt_of_succ_lt_succ enough) t

/-- Members are read one after another. -/
theorem StandMembers.agrees {members : List (String × Json)}
    (stands : StandMembers P isFirst members cs rest) {member : String → σ → Reader σ}
    {step : σ → String × Json → Except Mismatch σ}
    (agrees : ∀ {name v behind text rest} s, readColon behind = .ok text →
      P v (skipSpace text) rest → Agrees (member name s behind) (step s (name, v)) rest)
    (enough : members.length < steps) (s : σ) :
    Agrees (readMembers member steps isFirst s cs) (members.foldlM step s) rest := by
  induction stands generalizing steps s with
  | close close =>
    obtain ⟨steps, rfl⟩ := Nat.exists_eq_succ_of_ne_zero (Nat.ne_of_gt enough)
    rw [readMembers, nextMember_of_close close]
    exact .ok s _
  | @member _ name _ _ _ _ _ behind _ _ _ separated quote named colon value _ ih =>
    obtain ⟨steps, rfl⟩ := Nat.exists_eq_succ_of_ne_zero (Nat.ne_zero_of_lt enough)
    rw [readMembers, nextMember_of_quote separated quote, List.foldlM_cons]
    change Agrees (scanString _ >>= fun p ↦ member p.1 s p.2 >>= fun q ↦
      readMembers member steps false q.1 q.2) _ _
    rw [named]
    exact (agrees s (readColon_of_colon colon) value).bind fun t _ ↦
      ih (Nat.lt_of_succ_lt_succ enough) t

end Loops

/-! ### Reading values -/

/-- A scalar is read from its text. -/
theorem StandsScalar.readValue (stands : StandsScalar v cs rest) (depth : Nat) :
    readValue depth cs = .ok (v.sorted, rest) := by
  have space := stands.begins.skipSpace
  cases stands with
  | null | isTrue | isFalse =>
    rw [readValue.eq_def]
    dsimp only
    rw [space]
    rfl
  | text scan =>
    rw [readValue.eq_def]
    dsimp only
    rw [space]
    simp only [Char.reduceEq, Char.reduceIsDigit, if_false, if_true, Bool.false_eq_true, scan]
    rfl
  | integer word stops => exact readValue_renderNumber word stops depth
  | float scan =>
    obtain ⟨c, more, rfl, digit⟩ := exists_digit_of_scanNumber scan
    rw [readValue_of_isDigit digit, scan]
    rfl
  | negative scan =>
    rw [readValue.eq_def]
    dsimp only
    rw [space]
    simp only [Char.reduceEq, if_false, if_true, scan]
    rfl

/-- To put entries with two names into a list in either order is the same. -/
private theorem insertEntry_comm {k k' : String} (distinct : k ≠ k') (v v' : Json)
    (l : List (String × Json)) :
    Dictionary.insertEntry k v (Dictionary.insertEntry k' v' l) =
      Dictionary.insertEntry k' v' (Dictionary.insertEntry k v l) := by
  induction l with
  | nil => grind [Dictionary.insertEntry, String.lt_irrefl, String.lt_trans]
  | cons e l ih => grind [Dictionary.insertEntry, String.lt_irrefl, String.lt_trans]

/-- An object that is made of members with distinct names has them sorted. -/
theorem ofMembers_of_distinct {members : List (String × Json)}
    (distinct : (members.map (·.1)).Nodup) :
    ofMembers (members.map fun m ↦ (m.1, m.2.sorted)) = .object (sortedMembers members) := by
  let put (sorted : List (String × Json)) (m : String × Json) : List (String × Json) :=
    Dictionary.insertEntry m.1 m.2.sorted sorted
  have later {m : String × Json} {ms : List (String × Json)} (other : m.1 ∉ ms.map (·.1))
      (l : List (String × Json)) : ms.foldl put (put l m) = put (ms.foldl put l) m := by
    induction ms generalizing l with
    | nil => rfl
    | cons m' ms ih =>
      rw [List.map_cons, List.mem_cons, not_or] at other
      have swap : put (put l m) m' = put (put l m') m :=
        insertEntry_comm (Ne.symm other.1) _ _ l
      rw [List.foldl_cons, swap, ih other.2, List.foldl_cons]
  have key : members.foldl put [] = sortedMembers members := by
    induction members with
    | nil => rfl
    | cons m ms ih =>
      rw [List.map_cons, List.nodup_cons] at distinct
      rw [List.foldl_cons, later distinct.1, ih distinct.2]
      rfl
  rw [ofMembers, List.foldl_map]
  exact congrArg Json.object key

section Containers

variable {depth : Nat}
  (reads : ∀ {v cs rest}, Stands levels v cs rest → Json.readValue depth cs = .ok (v.sorted, rest))
include reads

/-- Items are read in front of those before them, the last one first. -/
theorem StandItems.readItems {items : List Json}
    (stands : StandItems (Stands levels) true items cs rest) :
    readItems (readItem depth) (cs.length + 1) true [] cs =
      .ok ((items.map sorted).reverse, rest) := by
  have keeps {v : Json} {cs rest : List Char} (s : List Json) (value : Stands levels v cs rest) :
      Agrees (readItem depth s cs) (pure (v.sorted :: s)) rest := by
    rw [readItem, reads value]
    exact .ok _ _
  have enough : items.length < cs.length + 1 := by
    have := stands.length_lt Stands.length_lt
    omega
  have loop : Agrees (Json.readItems (readItem depth) (cs.length + 1) true [] cs)
      (items.foldlM (fun s v ↦ pure (v.sorted :: s)) []) rest :=
    stands.agrees Stands.begins keeps enough []
  rw [loop.eq_ok List.foldlM_pure]
  simp

/-- Members are read in front of those before them, the last one first. -/
theorem StandMembers.readMembers {members : List (String × Json)}
    (stands : StandMembers (Stands levels) true members cs rest) :
    readMembers (readMember depth) (cs.length + 1) true [] cs =
      .ok ((members.map fun m ↦ (m.1, m.2.sorted)).reverse, rest) := by
  have keeps {name : String} {v : Json} {behind text rest : List Char}
      (s : List (String × Json)) (colon : readColon behind = .ok text)
      (value : Stands levels v (skipSpace text) rest) :
      Agrees (readMember depth name s behind) (pure ((name, v.sorted) :: s)) rest := by
    rw [readMember, colon]
    change Agrees (Json.readValue depth text >>= fun p ↦ _) _ _
    rw [← readValue_skipSpace, reads value]
    exact .ok _ _
  have enough : members.length < cs.length + 1 := by
    have := stands.length_lt Stands.length_lt
    omega
  have loop : Agrees (Json.readMembers (readMember depth) (cs.length + 1) true [] cs)
      (members.foldlM (fun s m ↦ pure ((m.1, m.2.sorted) :: s)) []) rest :=
    stands.agrees keeps enough []
  rw [loop.eq_ok List.foldlM_pure]
  simp

end Containers

/-- A value is read from its text, with the members of its objects sorted. -/
theorem Stands.readValue (stands : Stands levels v cs rest) {depth : Nat} (deep : levels < depth) :
    readValue depth cs = .ok (v.sorted, rest) := by
  induction levels generalizing v cs rest depth with
  | zero => exact StandsScalar.readValue stands depth
  | succ levels ih =>
    obtain ⟨depth, rfl⟩ : ∃ inner, depth = inner + 2 := ⟨depth - 2, by omega⟩
    have inner : levels < depth + 1 := Nat.lt_of_succ_lt_succ deep
    have space : skipSpace cs = cs := (Stands.begins stands).skipSpace
    cases stands with
    | scalar stands => exact stands.readValue _
    | @array items cs rest stands =>
      rw [readValue.eq_def]
      dsimp only
      rw [space]
      simp only [Char.reduceEq, Char.reduceIsDigit, if_false, if_true, Bool.false_eq_true]
      change (readItems (readItem (depth + 1)) _ true [] cs).map _ = _
      rw [stands.readItems (ih · inner)]
      simp [Except.map, sorted, sortedItems_eq_map]
    | @object members cs rest distinct stands =>
      rw [readValue.eq_def]
      dsimp only
      rw [space]
      simp only [Char.reduceEq, Char.reduceIsDigit, if_false, if_true, Bool.false_eq_true]
      change (readMembers (readMember (depth + 1)) _ true [] cs).map _ = _
      rw [stands.readMembers (ih · inner)]
      simp [Except.map, sorted, ← ofMembers_of_distinct distinct]

/-- A text is read as the value that it is the text of, with the members of objects sorted. -/
theorem IsText.parse {text : String} (isText : IsText levels v text) (deep : levels < maxDepth) :
    Json.parse text = .ok v.sorted := by
  obtain ⟨rest, stands, end_⟩ := isText
  rw [Json.parse, readWhole, ← readValue_skipSpace, stands.readValue deep]
  change (readEnd rest >>= fun _ ↦ Except.ok v.sorted) = _
  rw [readEnd, end_]
  rfl

end LanguageHub.Json
