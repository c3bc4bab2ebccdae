import NodeFeatureOperator.Json.Piece
import NodeFeatureOperator.Json.Printer

/-!
# A compact text is the text of one value

Where the compact text of a value stands at the start of a text, it shows which value it is and
where it ends, so that two values with one text are one value. A quoted text ends at the first quote
that is not escaped, and the reader undoes the escapes, whatever the characters are. A list or an
object ends at its own bracket. Only a number has no end of its own: it ends where no digit follows,
and inside a value a comma or a bracket always does. Nothing is asked of the keys of an object,
neither their order nor that they are different.

Numbers with a fraction are left out. Their text is the shortest one that reads back, a question of
rounding and not of grammar.

## Main definitions

* `Json.Integral`: every number in a value is an integer.
* `Json.Stops`: a text does not go on with a digit.

## Main results

* `Json.Piece.scan?_quoted`, `Json.Piece.joined?_map_ofChar`: the reader undoes the escapes.
* `Json.chars_append_inj`: the value and what follows it can be told from the text of both.
* `Json.text_inj`: integral values with one text are equal.
-/

namespace NodeFeatureOperator

namespace Json

/-! ### Quoted texts -/

namespace Piece

/-- The piece by which a character is written: a unit for the control characters that have no
escape of one letter. -/
def ofChar (c : Char) : Piece :=
  if c.toNat < 32 ∧ c.toNat ∉ [8, 9, 10, 12, 13] then .unit c.toNat else .char c

/-- The two digits of a control character are read back. -/
theorem hexUnit?_control {n : Nat} (h : n < 32) :
    hexUnit? '0' '0' (hexDigit (n / 16)) (hexDigit n) = some n := by
  have hall : ∀ n < 32, hexUnit? '0' '0' (hexDigit (n / 16)) (hexDigit n) = some n := by decide
  exact hall n h

/-- A character that is written as it is. -/
theorem scan?_char {c : Char} (hquote : c ≠ '"') (hback : c ≠ '\\') (h : 32 ≤ c.toNat)
    (rest : List Char) :
    scan? (c :: rest) = (scan? rest).map fun p => (.char c :: p.1, p.2) := by
  rw [scan?, if_neg (Nat.not_lt.mpr h)]
  · cases scan? rest <;> rfl
  · exact hquote
  · rintro _ _ _ _ _ rfl
    exact absurd rfl hback
  · rintro _ _ rfl
    exact absurd rfl hback

/-- A character that is written with one letter. -/
theorem scan?_escaped {e c : Char} (he : escaped? e = some c) (hu : e ≠ 'u') (rest : List Char) :
    scan? ('\\' :: e :: rest) = (scan? rest).map fun p => (.char c :: p.1, p.2) := by
  rw [scan?, he]
  · cases scan? rest <;> rfl
  · rintro _ _ _ _ _ rfl
    exact absurd rfl hu

/-- A character that is written with four digits. -/
theorem scan?_unit {x y z w : Char} {n : Nat} (h : hexUnit? x y z w = some n) (rest : List Char) :
    scan? ('\\' :: 'u' :: x :: y :: z :: w :: rest) =
      (scan? rest).map fun p => (.unit n :: p.1, p.2) := by
  rw [scan?, h]
  cases scan? rest <;> rfl

/-- Whichever way a character is written, the reader takes one piece for it. -/
theorem scan?_escape (c : Char) (rest : List Char) :
    scan? (escape c ++ rest) = (scan? rest).map fun p => (ofChar c :: p.1, p.2) := by
  by_cases hquote : c = '"'
  · subst hquote
    exact scan?_escaped rfl (by decide) rest
  by_cases hback : c = '\\'
  · subst hback
    exact scan?_escaped rfl (by decide) rest
  by_cases hplain : 32 ≤ c.toNat
  · rw [escape, if_neg hquote, if_neg hback, if_pos hplain, ofChar,
      if_neg fun h => absurd h.1 (Nat.not_lt.mpr hplain)]
    exact scan?_char hquote hback hplain rest
  by_cases hshort : c.toNat ∈ [8, 9, 10, 12, 13]
  · have hc : c = Char.ofNat c.toNat := (Char.ofNat_toNat c).symm
    simp only [List.mem_cons, List.not_mem_nil, or_false] at hshort
    obtain h | h | h | h | h := hshort <;> rw [h] at hc <;> subst hc <;>
      exact scan?_escaped rfl (by decide) rest
  · rw [ofChar, if_pos ⟨Nat.not_le.mp hplain, hshort⟩]
    simp only [List.mem_cons, List.not_mem_nil, or_false, not_or] at hshort
    simp only [escape, hquote, hback, hplain, hshort, if_false]
    exact scan?_unit (hexUnit?_control (Nat.not_le.mp hplain)) rest

/-- The reader takes one piece for each character, up to the quote. -/
theorem scan?_quoted (l rest : List Char) :
    scan? (l.flatMap escape ++ '"' :: rest) = some (l.map ofChar, rest) := by
  induction l with
  | nil => rfl
  | cons c l ih =>
      rw [List.flatMap_cons, List.append_assoc, scan?_escape, ih]
      rfl

/-- A unit that is no half of a pair stands for a character, whatever follows it. -/
theorem joined?_unit {n : Nat} (h : n < 0xD800) (rest : List Piece) :
    joined? (.unit n :: rest) = (joined? rest).map (Char.ofNat n :: ·) := by
  have hhigh : ¬ (0xD800 ≤ n ∧ n < 0xDC00) := by omega
  have hlow : ¬ (0xDC00 ≤ n ∧ n < 0xE000) := by omega
  have hhalf : ¬ (0xD800 ≤ n ∧ n < 0xE000) := by omega
  match rest with
  | [] => simp only [joined?, if_neg hhalf]
  | .char c :: rest => simp only [joined?, if_neg hhalf]
  | .unit low :: rest => rw [joined?, if_neg hhigh, if_neg hlow]

/-- The pieces are worth the characters. -/
theorem joined?_map_ofChar (l : List Char) : joined? (l.map ofChar) = some l := by
  induction l with
  | nil => rfl
  | cons c l ih =>
      rw [List.map_cons, ofChar]
      split
      next h =>
        have hc : c.toNat < 0xD800 := by omega
        rw [joined?_unit hc, ih, Option.map_some, Char.ofNat_toNat]
      · rw [joined?, ih, Option.map_some]

end Piece

variable {r r' : List Char}

/-- A quoted text and what follows it can be told from the text of both. -/
theorem quotedChars_append_inj {s s' : String}
    (h : quotedChars s ++ r = quotedChars s' ++ r') : s = s' ∧ r = r' := by
  have happend : ∀ (s : String) r,
      quotedChars s ++ r = '"' :: (s.toList.flatMap escape ++ '"' :: r) := by simp [quotedChars]
  rw [happend, happend] at h
  have hread := Piece.scan?_quoted s.toList r
  rw [(List.cons.inj h).2, Piece.scan?_quoted] at hread
  obtain ⟨hpieces, hrest⟩ := Prod.mk.inj (Option.some.inj hread)
  have hchars := Piece.joined?_map_ofChar s.toList
  rw [← hpieces, Piece.joined?_map_ofChar] at hchars
  exact ⟨String.toList_injective (Option.some.inj hchars).symm, hrest.symm⟩

/-! ### Integers -/

/-- The text does not go on with a digit. -/
def Stops (s : List Char) : Prop := ∀ c ∈ s.head?, c.isDigit = false

/-- A text that is at its end does not go on. -/
theorem stops_nil : Stops [] := nofun

/-- A text that begins otherwise does not go on with a digit. -/
theorem stops_cons {c : Char} (h : c.isDigit = false) (s : List Char) : Stops (c :: s) := by
  rintro _ ⟨⟩
  exact h

/-- The digits of a number are digits. -/
theorem isDigit_of_mem_toDigits {n : Nat} {c : Char} (h : c ∈ Nat.toDigits 10 n) :
    c.isDigit = true :=
  Nat.isDigit_of_mem_toDigits (by decide) (by decide) h

/-- A number has at least one. -/
theorem exists_toDigits (n : Nat) : ∃ c s, Nat.toDigits 10 n = c :: s ∧ c.isDigit = true := by
  obtain ⟨c, s, hs⟩ := List.exists_cons_of_ne_nil (l := Nat.toDigits 10 n) Nat.toDigits_ne_nil
  exact ⟨c, s, hs, isDigit_of_mem_toDigits (hs ▸ List.mem_cons_self)⟩

/-- The digits of a number are those at the start of the text. -/
theorem takeWhile_toDigits (n : Nat) (hr : Stops r) :
    (Nat.toDigits 10 n ++ r).takeWhile Char.isDigit = Nat.toDigits 10 n := by
  rw [List.takeWhile_append_of_pos fun _ => isDigit_of_mem_toDigits]
  cases r with
  | nil => rw [List.takeWhile_nil, List.append_nil]
  | cons c r => rw [List.takeWhile_cons_of_neg (by simp [hr c rfl]), List.append_nil]

/-- A number and what follows it can be told from the text of both. -/
theorem toDigits_append_inj {m n : Nat} (hr : Stops r) (hr' : Stops r')
    (h : Nat.toDigits 10 m ++ r = Nat.toDigits 10 n ++ r') : m = n ∧ r = r' := by
  have hdigits : Nat.toDigits 10 m = Nat.toDigits 10 n := by
    rw [← takeWhile_toDigits m hr, h, takeWhile_toDigits n hr']
  rw [hdigits] at h
  refine ⟨?_, List.append_cancel_left h⟩
  rw [← Nat.ofDigitChars_ten_toDigits (n := m), hdigits, Nat.ofDigitChars_ten_toDigits]

/-- An integer is written as the digits of its magnitude, behind a sign if it is negative. -/
theorem numberChars_int (i : Int) :
    numberChars (.int i) =
      if 0 ≤ i then Nat.toDigits 10 i.natAbs else '-' :: Nat.toDigits 10 i.natAbs := by
  cases i with
  | ofNat n =>
      change (toString n).toList = Nat.toDigits 10 n
      rw [Nat.toString_eq_repr, Nat.toList_repr]
  | negSucc n =>
      change ("-" ++ Nat.repr (n + 1)).toList = '-' :: Nat.toDigits 10 (n + 1)
      rw [String.toList_append, Nat.toList_repr]
      rfl

/-- No digits begin with a sign. -/
theorem toDigits_append_ne (n : Nat) : Nat.toDigits 10 n ++ r ≠ '-' :: r' := by
  obtain ⟨c, s, hs, hc⟩ := exists_toDigits n
  intro h
  rw [hs] at h
  rw [(List.cons.inj h).1] at hc
  exact absurd hc (by decide)

/-- An integer and what follows it can be told from the text of both. -/
theorem numberChars_append_inj {i i' : Int} (hr : Stops r) (hr' : Stops r')
    (h : numberChars (.int i) ++ r = numberChars (.int i') ++ r') : i = i' ∧ r = r' := by
  rw [numberChars_int, numberChars_int] at h
  split at h <;> split at h
  · obtain ⟨habs, hrest⟩ := toDigits_append_inj hr hr' h
    exact ⟨by omega, hrest⟩
  · exact absurd h (toDigits_append_ne _)
  · exact absurd h.symm (toDigits_append_ne _)
  · obtain ⟨habs, hrest⟩ := toDigits_append_inj hr hr' (List.cons.inj h).2
    exact ⟨by omega, hrest⟩

/-! ### Values -/

mutual
/-- Every number in the value is an integer. -/
def Integral : Json → Prop
  | .num (.double _) => False
  | .arr items => IntegralItems items
  | .obj fields => IntegralFields fields
  | _ => True
termination_by structural j => j
/-- Every number in the items is an integer. -/
def IntegralItems : List Json → Prop
  | [] => True
  | j :: rest => Integral j ∧ IntegralItems rest
termination_by structural l => l
/-- Every number in the fields is an integer. -/
def IntegralFields : List (String × Json) → Prop
  | [] => True
  | (_, j) :: rest => Integral j ∧ IntegralFields rest
termination_by structural l => l
end

/-- The character that tells the sort of a value; a zero stands for all numbers. -/
def lead : Json → Char
  | .null => 'n'
  | .bool true => 't'
  | .bool false => 'f'
  | .num _ => '0'
  | .str _ => '"'
  | .arr _ => '['
  | .obj _ => '{'

/-- The sort of the value that begins with a character. -/
def leadOf (c : Char) : Char := if c.isDigit ∨ c = '-' then '0' else c

/-- The text of a value begins with a character that tells its sort. -/
theorem exists_chars {j : Json} (h : j.Integral) :
    ∃ c s, chars j = c :: s ∧ leadOf c = j.lead := by
  match j, h with
  | .null, _ | .bool true, _ | .bool false, _ | .str _, _ | .arr [], _ | .arr (_ :: _), _
  | .obj [], _ | .obj ((_, _) :: _), _ => exact ⟨_, _, rfl, rfl⟩
  | .num (.int i), _ =>
      rw [chars, numberChars_int]
      split
      · obtain ⟨c, s, hs, hc⟩ := exists_toDigits i.natAbs
        exact ⟨c, s, hs, if_pos (.inl hc)⟩
      · exact ⟨_, _, rfl, if_pos (.inr rfl)⟩

variable {j j' : Json} {items items' : List Json} {fields fields' : List (String × Json)}

/-- Values whose texts begin alike are of one sort. -/
theorem lead_eq_of_append_eq (hj : j.Integral) (hj' : j'.Integral)
    (h : chars j ++ r = chars j' ++ r') : j.lead = j'.lead := by
  obtain ⟨c, s, hs, hc⟩ := exists_chars hj
  obtain ⟨c', s', hs', hc'⟩ := exists_chars hj'
  rw [hs, hs'] at h
  rw [← hc, ← hc', (List.cons.inj h).1]

/-- No value begins with the bracket that ends a list. -/
theorem chars_append_ne (hj : j.Integral) : chars j ++ r ≠ ']' :: r' := by
  obtain ⟨c, s, hs, hc⟩ := exists_chars hj
  intro h
  rw [hs] at h
  rw [(List.cons.inj h).1] at hc
  match j with
  | .null | .bool true | .bool false | .num _ | .str _ | .arr _ | .obj _ => cases hc

/-- After an item comes no digit. -/
theorem stops_itemsChars (items : List Json) (r : List Char) : Stops (itemsChars items ++ r) := by
  cases items <;> exact stops_cons rfl _

/-- After a field comes no digit. -/
theorem stops_fieldsChars (fields : List (String × Json)) (r : List Char) :
    Stops (fieldsChars fields ++ r) := by
  match fields with
  | [] | (_, _) :: _ => exact stops_cons rfl _

/-- Lists with one text have items with one text: what is written before the first item plays no
part. -/
theorem itemsChars_append_eq (hitems : IntegralItems items) (hitems' : IntegralItems items')
    (h : chars (.arr items) ++ r = chars (.arr items') ++ r') :
    itemsChars items ++ r = itemsChars items' ++ r' := by
  match items, items' with
  | [], [] => simpa [chars, itemsChars] using h
  | [], j :: rest =>
      have hclosed : chars j ++ (itemsChars rest ++ r') = ']' :: r := by
        simpa [chars] using h.symm
      exact absurd hclosed (chars_append_ne hitems'.1)
  | j :: rest, [] =>
      have hclosed : chars j ++ (itemsChars rest ++ r) = ']' :: r' := by
        simpa [chars] using h
      exact absurd hclosed (chars_append_ne hitems.1)
  | _ :: _, _ :: _ => simpa [chars, itemsChars] using h

/-- Objects with one text have fields with one text. -/
theorem fieldsChars_append_eq (h : chars (.obj fields) ++ r = chars (.obj fields') ++ r') :
    fieldsChars fields ++ r = fieldsChars fields' ++ r' := by
  match fields, fields' with
  | [], [] | (_, _) :: _, (_, _) :: _ => simpa [chars, fieldsChars] using h
  | [], (_, _) :: _ | (_, _) :: _, [] => simp [chars, quotedChars] at h

-- By recursion on the first value. The first character tells the sort of both, so that only values
-- of one sort are left, and the parts of the first are compared with those of the second in order.
mutual
/-- A value and what follows it can be told from the text of both. -/
theorem chars_append_inj : (j : Json) → j.Integral → ∀ {j' r r'}, j'.Integral → Stops r →
    Stops r' → chars j ++ r = chars j' ++ r' → j = j' ∧ r = r'
  | .null, hj, j', r, r', hj', hr, hr', h => by
      have hlead := lead_eq_of_append_eq hj hj' h
      match j' with
      | .null => exact ⟨rfl, List.append_cancel_left h⟩
  | .bool true, hj, j', r, r', hj', hr, hr', h => by
      have hlead := lead_eq_of_append_eq hj hj' h
      match j' with
      | .bool true => exact ⟨rfl, List.append_cancel_left h⟩
  | .bool false, hj, j', r, r', hj', hr, hr', h => by
      have hlead := lead_eq_of_append_eq hj hj' h
      match j' with
      | .bool false => exact ⟨rfl, List.append_cancel_left h⟩
  | .num (.int i), hj, j', r, r', hj', hr, hr', h => by
      have hlead := lead_eq_of_append_eq hj hj' h
      match j' with
      | .num (.int i') =>
          obtain ⟨rfl, hrest⟩ := numberChars_append_inj hr hr' h
          exact ⟨rfl, hrest⟩
  | .str s, hj, j', r, r', hj', hr, hr', h => by
      have hlead := lead_eq_of_append_eq hj hj' h
      match j' with
      | .str s' =>
          obtain ⟨rfl, hrest⟩ := quotedChars_append_inj h
          exact ⟨rfl, hrest⟩
  | .arr items, hj, j', r, r', hj', hr, hr', h => by
      have hlead := lead_eq_of_append_eq hj hj' h
      match j' with
      | .arr items' =>
          have hitems := itemsChars_append_eq hj hj' h
          obtain ⟨rfl, hrest⟩ := itemsChars_append_inj items hj hj' hitems
          exact ⟨rfl, hrest⟩
  | .obj fields, hj, j', r, r', hj', hr, hr', h => by
      have hlead := lead_eq_of_append_eq hj hj' h
      match j' with
      | .obj fields' =>
          have hfields := fieldsChars_append_eq h
          obtain ⟨rfl, hrest⟩ := fieldsChars_append_inj fields hj hj' hfields
          exact ⟨rfl, hrest⟩
/-- So can items, up to the closing bracket. -/
theorem itemsChars_append_inj : (items : List Json) → IntegralItems items → ∀ {items' r r'},
    IntegralItems items' → itemsChars items ++ r = itemsChars items' ++ r' →
    items = items' ∧ r = r'
  | [], hitems, items', r, r', hitems', h => by
      match items' with
      | [] => exact ⟨rfl, List.append_cancel_left h⟩
      | _ :: _ => simp [itemsChars] at h
  | j :: rest, hitems, items', r, r', hitems', h => by
      match items' with
      | [] => simp [itemsChars] at h
      | j' :: rest' =>
          have hfirst : chars j ++ (itemsChars rest ++ r) =
              chars j' ++ (itemsChars rest' ++ r') := by
            simpa [itemsChars] using h
          obtain ⟨rfl, hrest⟩ := chars_append_inj j hitems.1 hitems'.1 (stops_itemsChars rest r)
            (stops_itemsChars rest' r') hfirst
          obtain ⟨rfl, hafter⟩ := itemsChars_append_inj rest hitems.2 hitems'.2 hrest
          exact ⟨rfl, hafter⟩
/-- So can fields, up to the closing brace. -/
theorem fieldsChars_append_inj : (fields : List (String × Json)) → IntegralFields fields →
    ∀ {fields' r r'}, IntegralFields fields' →
    fieldsChars fields ++ r = fieldsChars fields' ++ r' → fields = fields' ∧ r = r'
  | [], hfields, fields', r, r', hfields', h => by
      match fields' with
      | [] => exact ⟨rfl, List.append_cancel_left h⟩
      | (_, _) :: _ => simp [fieldsChars] at h
  | (k, j) :: rest, hfields, fields', r, r', hfields', h => by
      match fields' with
      | [] => simp [fieldsChars] at h
      | (k', j') :: rest' =>
          have hkey : quotedChars k ++ (':' :: (chars j ++ (fieldsChars rest ++ r))) =
              quotedChars k' ++ (':' :: (chars j' ++ (fieldsChars rest' ++ r'))) := by
            simpa [fieldsChars] using h
          obtain ⟨rfl, hvalue⟩ := quotedChars_append_inj hkey
          obtain ⟨rfl, hrest⟩ := chars_append_inj j hfields.1 hfields'.1 (stops_fieldsChars rest r)
            (stops_fieldsChars rest' r') (List.cons.inj hvalue).2
          obtain ⟨rfl, hafter⟩ := fieldsChars_append_inj rest hfields.2 hfields'.2 hrest
          exact ⟨rfl, hafter⟩
end

/-- Integral values with one text are equal. -/
theorem text_inj (hj : j.Integral) (hj' : j'.Integral) : j.text = j'.text ↔ j = j' := by
  refine ⟨fun h => ?_, congrArg text⟩
  have hchars : chars j ++ [] = chars j' ++ [] := by
    rw [String.ofList_injective h]
  exact (chars_append_inj j hj hj' stops_nil stops_nil hchars).1

end Json

end NodeFeatureOperator
