import SessionBroker.Json.Record

/-!
# Compact text is read back

What the printer writes the grammar reads, and what the grammar reads has the value that was
written. The two meet in the document of a value, `Value.written`: `readValue_render` says
that a value's text is read as its document whatever may follow it, and `value?_written` says
that the document has that value.

Three things go into the first. A string's text escapes its own quotes, so it ends at the
closing one. A numeral ends where a comma, a closing bracket or the end of the text follows
(`Delimited`), which is what follows every part of a compact text. And the count with which the
readers start is above twice the length of the text.
-/

namespace SessionBroker.Json

open Written

/-! ## Strings -/

/-- A character is written as a backslash and a letter, as a backslash and its number, or as
itself. -/
theorem escape_cases (c : Char) :
    (∃ e, e ≠ 'u' ∧ escape c = ['\\', e] ∧ escaped? e = some c) ∨
      (∃ x y, escape c = ['\\', 'u', '0', '0', x, y] ∧
        codeUnit? '0' '0' x y = some c.toNat ∧ c.toNat < 0x20) ∨
      (c ≠ '"' ∧ c ≠ '\\' ∧ 0x20 ≤ c.toNat ∧ escape c = [c]) := by
  have hcode : ∀ n < 0x20,
      codeUnit? '0' '0' (hexDigit (n / 16)) (hexDigit (n % 16)) = some n := by decide
  have hletter : ∀ {n : Nat}, c.toNat = n → c = Char.ofNat n := fun h =>
    h ▸ (Char.ofNat_toNat c).symm
  by_cases hquote : c = '"'
  · exact .inl ⟨'"', by decide, by simp [escape, hquote], by simp [escaped?, hquote]⟩
  by_cases hslash : c = '\\'
  · exact .inl ⟨'\\', by decide, by simp [escape, hslash], by simp [escaped?, hslash]⟩
  by_cases hcontrol : c.toNat < 0x20
  · have hshort : ∀ (n : Nat) (e : Char), c.toNat = n → e ≠ 'u' →
        escape (Char.ofNat n) = ['\\', e] → escaped? e = some (Char.ofNat n) →
        ∃ e, e ≠ 'u' ∧ escape c = ['\\', e] ∧ escaped? e = some c :=
      fun n e hn hu hesc hback => ⟨e, hu, hletter hn ▸ hesc, hletter hn ▸ hback⟩
    by_cases h8 : c.toNat = 0x08
    · exact .inl (hshort _ 'b' h8 (by decide) (by decide) (by decide))
    by_cases h9 : c.toNat = 0x09
    · exact .inl (hshort _ 't' h9 (by decide) (by decide) (by decide))
    by_cases h10 : c.toNat = 0x0a
    · exact .inl (hshort _ 'n' h10 (by decide) (by decide) (by decide))
    by_cases h12 : c.toNat = 0x0c
    · exact .inl (hshort _ 'f' h12 (by decide) (by decide) (by decide))
    by_cases h13 : c.toNat = 0x0d
    · exact .inl (hshort _ 'r' h13 (by decide) (by decide) (by decide))
    · refine .inr (.inl ⟨_, _, ?_, hcode c.toNat hcontrol, hcontrol⟩)
      simp [escape, hquote, hslash, hcontrol]
  · exact .inr (.inr ⟨hquote, hslash, Nat.le_of_not_lt hcontrol, by
      simp [escape, hquote, hslash, hcontrol]⟩)

theorem readString_escape (c : Char) (s : List Char) :
    readString (escape c ++ s) = (readString s).map fun p => (escape c ++ p.1, p.2) := by
  obtain ⟨e, hu, hesc, hback⟩ | ⟨x, y, hesc, hcode, -⟩ | ⟨hquote, hslash, hprint, hesc⟩ :=
    escape_cases c
  · rw [hesc]
    simp [readString, hu, hback]
    cases readString s <;> simp
  · rw [hesc]
    simp [readString, hcode]
    cases readString s <;> simp
  · rw [hesc]
    have hplain : ¬ (c.toNat < 0x20 ∨ c = '\\') := by simp [hslash, Nat.not_lt.mpr hprint]
    show readString (c :: s) = _
    rw [readString, if_neg hplain]
    · rfl
    · exact fun heq => hquote heq
    · exact fun _ _ _ _ _ heq => absurd heq hslash
    · exact fun _ _ heq => absurd heq hslash

/-- The text of a string ends at its closing quote. -/
theorem readString_flatMap_escape (s rest : List Char) :
    readString (s.flatMap escape ++ '"' :: rest) = some (s.flatMap escape, rest) := by
  induction s with
  | nil => simp [readString]
  | cons c s ih => simp [readString_escape, ih]

theorem unescape?_escape (c : Char) (s : List Char) :
    unescape? (escape c ++ s) = (unescape? s).map fun t => c :: t := by
  obtain ⟨e, hu, hesc, hback⟩ | ⟨x, y, hesc, hcode, hcontrol⟩ | ⟨-, hslash, -, hesc⟩ :=
    escape_cases c
  · rw [hesc]
    simp [unescape?, hu, hback]
  · have hhigh : ¬ 0xd800 ≤ c.toNat := by omega
    have hlow : ¬ 0xdc00 ≤ c.toNat := by omega
    rw [hesc]
    simp [unescape?, hcode, hhigh, hlow]
  · rw [hesc]
    simp [unescape?, hslash]

theorem unescape?_flatMap_escape (s : List Char) : unescape? (s.flatMap escape) = some s := by
  induction s with
  | nil => simp [unescape?]
  | cons c s ih => simp [unescape?_escape, ih]

/-- The text between the quotes of a string. -/
def rawText (s : String) : List Char := s.toList.flatMap escape

theorem readString_key (k : String) (rest : List Char) :
    readString (rawText k ++ '"' :: rest) = some (rawText k, rest) :=
  readString_flatMap_escape k.toList rest

@[simp]
theorem stringOf?_rawText (s : String) : stringOf? (rawText s) = some s := by
  simp [stringOf?, rawText, unescape?_flatMap_escape]

/-! ## Numerals -/

namespace Numeral

/-- A whole number as it is written. -/
def ofInt (i : Int) : Numeral := ⟨decide (i < 0), renderNat i.natAbs, none, none⟩

theorem absorb_of_le {ds : List Char} {n : Nat}
    (h : Nat.ofDigitChars 10 ds n ≤ maxSignificand) :
    absorb n ds = (Nat.ofDigitChars 10 ds n, []) := by
  induction ds generalizing n with
  | nil => simp [absorb]
  | cons d ds ih =>
    have hnext : Nat.ofDigitChars 10 (d :: ds) n =
        Nat.ofDigitChars 10 ds (n * 10 + digitValue d) := by
      rw [Nat.ofDigitChars_cons, Nat.mul_comm 10 n]
      rfl
    have hfits : n * 10 + digitValue d ≤ maxSignificand := by
      refine Nat.le_trans ?_ (hnext ▸ h)
      rw [Nat.ofDigitChars_eq_ofDigitChars_zero]
      exact Nat.le_trans (Nat.le_mul_of_pos_left _ (Nat.pow_pos (by decide)))
        (Nat.le_add_right _ _)
    rw [absorb, if_neg (Nat.not_lt.mpr hfits), hnext, ih (hnext ▸ h)]

/-- Whole numbers of 64 bits, with or without sign. -/
def Fits (i : Int) : Prop := -(Nat.pow 2 63 : Nat) ≤ i ∧ i ≤ maxSignificand

theorem value?_ofInt {i : Int} (h : Fits i) : (ofInt i).value? = some (.integer i) := by
  have hpow : Nat.pow 2 63 = 9223372036854775808 := rfl
  have hsignificand : maxSignificand = 18446744073709551615 := rfl
  have hmax : i.natAbs ≤ maxSignificand := by
    simp only [Fits] at h
    omega
  have habsorb : absorb 0 (renderNat i.natAbs) = (i.natAbs, []) := by
    have hread : Nat.ofDigitChars 10 (renderNat i.natAbs) 0 = i.natAbs :=
      Nat.ofDigitChars_ten_toDigits
    rw [absorb_of_le (hread.symm ▸ hmax), hread]
  by_cases hneg : i < 0
  · have hrange : i.natAbs ≠ 0 ∧ i.natAbs ≤ Nat.pow 2 63 := by
      simp only [Fits] at h
      omega
    calc (ofInt i).value?
        = some (.integer (-(i.natAbs : Int))) := by
          have hne : i ≠ 0 := Int.ne_of_lt hneg
          simp [value?, ofInt, habsorb, hneg, hrange.2, hne]
      _ = some (.integer i) := by rw [Int.ofNat_natAbs_of_nonpos (Int.le_of_lt hneg), Int.neg_neg]
  · calc (ofInt i).value?
        = some (.integer i.natAbs) := by simp [value?, ofInt, habsorb, hneg]
      _ = some (.integer i) := by rw [Int.natAbs_of_nonneg (Int.not_lt.mp hneg)]

end Numeral

/-- A text that goes on with a comma or a closing bracket, or not at all. -/
def Delimited (s : List Char) : Prop := ∀ c ∈ s.head?, c = ',' ∨ c = ']' ∨ c = '\x7d'

theorem isDigit_renderNat {n : Nat} {c : Char} (h : c ∈ renderNat n) :
    Written.isDigit c = true := by
  have := Nat.isDigit_of_mem_toDigits (by decide) (by decide) h
  simpa [Written.isDigit, Char.isDigit, Char.le_def] using this

/-- A number other than zero is not written with a leading zero. -/
theorem renderNat_ne_zero_cons {n : Nat} (h : n ≠ 0) (s : List Char) :
    renderNat n ≠ '0' :: s := by
  induction n using Nat.strongRecOn generalizing s with
  | ind n ih =>
    unfold renderNat at *
    by_cases hsmall : n < 10
    · rw [Nat.toDigits_of_lt_base hsmall]
      have hdigit : ∀ n < 10, n ≠ 0 → Nat.digitChar n ≠ '0' := by decide
      exact fun heq => hdigit n hsmall h (List.cons.inj heq).1
    · rw [Nat.toDigits_of_base_le (by decide) (by omega)]
      cases hd : Nat.toDigits 10 (n / 10) with
      | nil => exact absurd hd Nat.toDigits_ne_nil
      | cons d ds =>
        rintro heq
        rw [List.cons_append, List.cons.injEq] at heq
        exact ih (n / 10) (by omega) (by omega) ds (heq.1 ▸ hd)

theorem readDigits_renderNat (n : Nat) {rest : List Char} (h : Delimited rest) :
    readDigits (renderNat n ++ rest) = (renderNat n, rest) := by
  have hrest : rest.takeWhile Written.isDigit = [] ∧ rest.dropWhile Written.isDigit = rest := by
    cases rest with
    | nil => exact ⟨rfl, rfl⟩
    | cons c s =>
      obtain rfl | rfl | rfl := h c rfl <;> exact ⟨rfl, rfl⟩
  have hall : ∀ c ∈ renderNat n, Written.isDigit c = true := fun c hc => isDigit_renderNat hc
  rw [readDigits, List.takeWhile_append_of_pos hall, List.dropWhile_append_of_pos hall, hrest.1,
    hrest.2, List.append_nil]

theorem readWhole_renderNat (n : Nat) {rest : List Char} (h : Delimited rest) :
    readWhole (renderNat n ++ rest) = some (renderNat n, rest) := by
  by_cases hzero : n = 0
  · subst hzero
    rfl
  · cases hd : renderNat n with
    | nil => exact absurd hd Nat.toDigits_ne_nil
    | cons d ds =>
      have hne : d ≠ '0' := fun heq => renderNat_ne_zero_cons hzero ds (heq ▸ hd)
      have hread := readDigits_renderNat n h
      rw [hd, List.cons_append] at hread
      rw [List.cons_append, readWhole]
      · rw [hread]
      · exact fun s heq => hne (List.cons.inj heq).1

theorem readUnsigned_renderNat (negative : Bool) (n : Nat) {rest : List Char}
    (h : Delimited rest) :
    readUnsigned negative (renderNat n ++ rest) =
      some (⟨negative, renderNat n, none, none⟩, rest) := by
  have hplain : readFraction rest = some (none, rest) ∧ readExponent rest = some (none, rest) := by
    cases rest with
    | nil => exact ⟨rfl, rfl⟩
    | cons c s =>
      obtain rfl | rfl | rfl := h c rfl <;> exact ⟨rfl, rfl⟩
  simp [readUnsigned, readWhole_renderNat n h, hplain]

theorem readNumeral_renderInt (i : Int) {rest : List Char} (h : Delimited rest) :
    readNumeral (renderInt i ++ rest) = some (.ofInt i, rest) := by
  by_cases hneg : i < 0
  · simp [renderInt, hneg, readNumeral, readUnsigned_renderNat true i.natAbs h, Numeral.ofInt]
  · cases hd : renderNat i.natAbs with
    | nil => exact absurd hd Nat.toDigits_ne_nil
    | cons d ds =>
      have hdigit : Written.isDigit d = true := isDigit_renderNat (hd ▸ List.mem_cons_self)
      have hread := readUnsigned_renderNat false i.natAbs h
      rw [hd, List.cons_append] at hread
      rw [renderInt, if_neg hneg, hd, List.cons_append, readNumeral]
      · rw [hread, Numeral.ofInt, decide_eq_false hneg, hd]
      · rintro s heq
        rw [(List.cons.inj heq).1] at hdigit
        exact absurd hdigit (by decide)

/-! ## Documents -/

namespace Value

/-- The document that a value is written as. The numeral of a binary64 number is left in one
piece. -/
def written : Value → Written
  | .null => .null
  | .bool b => .bool b
  | .integer i => .number (.ofInt i)
  | .decimal x => .number ⟨false, renderBinary64 x, none, none⟩
  | .string s => .string (rawText s)
  | .array items => .array (writtenItems items)
  | .object fields => .object (writtenFields fields)
where
  writtenItems : List Value → List Written
    | [] => []
    | v :: vs => written v :: writtenItems vs
  writtenFields : List (String × Value) → List (List Char × Written)
    | [] => []
    | (k, v) :: fs => (rawText k, written v) :: writtenFields fs

/-- A value without binary64 numbers, whose whole numbers fit 64 bits. -/
def Exact : Value → Prop
  | .integer i => Numeral.Fits i
  | .decimal _ => False
  | .array items => ExactItems items
  | .object fields => ExactFields fields
  | _ => True
where
  ExactItems : List Value → Prop
    | [] => True
    | v :: vs => Exact v ∧ ExactItems vs
  ExactFields : List (String × Value) → Prop
    | [] => True
    | (_, v) :: fs => Exact v ∧ ExactFields fs

/-- Every object in the value has its fields in the order of their keys, each key once. -/
def InOrder : Value → Prop
  | .array items => InOrderItems items
  | .object fields => (fields.map Prod.fst).Pairwise (· < ·) ∧ InOrderFields fields
  | _ => True
where
  InOrderItems : List Value → Prop
    | [] => True
    | v :: vs => InOrder v ∧ InOrderItems vs
  InOrderFields : List (String × Value) → Prop
    | [] => True
    | (_, v) :: fs => InOrder v ∧ InOrderFields fs

end Value

open Value

/-- A character with which a numeral starts. -/
def StartsNumeral (c : Char) : Prop := c = '-' ∨ Written.isDigit c = true

theorem StartsNumeral.ne {c d : Char} (h : StartsNumeral c) (hminus : d ≠ '-')
    (hdigit : Written.isDigit d = false) : c ≠ d := by
  rintro rfl
  exact h.elim hminus fun hc => Bool.false_ne_true (hdigit.symm.trans hc)

theorem StartsNumeral.isBlank_eq_false {c : Char} (h : StartsNumeral c) : isBlank c = false := by
  simp [isBlank, h.ne (d := ' ') (by decide) (by decide), h.ne (d := '\t') (by decide) (by decide),
    h.ne (d := '\n') (by decide) (by decide), h.ne (d := '\r') (by decide) (by decide)]

theorem renderInt_head (i : Int) : ∃ c s, renderInt i = c :: s ∧ StartsNumeral c := by
  by_cases hneg : i < 0
  · exact ⟨'-', renderNat i.natAbs, by simp [renderInt, hneg], .inl rfl⟩
  · cases hd : renderNat i.natAbs with
    | nil => exact absurd hd Nat.toDigits_ne_nil
    | cons d ds =>
      exact ⟨d, ds, by simp [renderInt, hneg, hd], .inr (isDigit_renderNat (hd ▸ List.mem_cons_self))⟩

theorem render_head {v : Value} (h : v.Exact) :
    ∃ c s, v.render = c :: s ∧ isBlank c = false ∧ c ≠ ']' := by
  cases v with
  | integer i =>
    obtain ⟨c, s, htext, hc⟩ := renderInt_head i
    exact ⟨c, s, htext, hc.isBlank_eq_false, hc.ne (by decide) (by decide)⟩
  | decimal x => exact h.elim
  | null => exact ⟨_, _, rfl, by decide, by decide⟩
  | bool b => cases b <;> exact ⟨_, _, rfl, by decide, by decide⟩
  | string s => exact ⟨_, _, rfl, by decide, by decide⟩
  | array items => exact ⟨_, _, rfl, by decide, by decide⟩
  | object fields => exact ⟨_, _, rfl, by decide, by decide⟩

theorem skipBlanks_cons {c : Char} (h : isBlank c = false) (s : List Char) :
    skipBlanks (c :: s) = c :: s := by
  simp [skipBlanks, h]

/-- What starts like a numeral is read as one. -/
theorem readValue_numeral (n : Nat) {c : Char} (h : StartsNumeral c) (s : List Char) :
    readValue (n + 1) (c :: s) = (readNumeral (c :: s)).map fun p => (.number p.1, p.2) := by
  rw [readValue, skipBlanks_cons h.isBlank_eq_false]
  split
  all_goals first
    | rfl
    | rename_i heq
      exact absurd (List.cons.inj heq).1 (h.ne (by decide) (by decide))

theorem readValue_array (n : Nat) {c : Char} (hblank : isBlank c = false) (hne : c ≠ ']')
    (s : List Char) :
    readValue (n + 1) ('[' :: c :: s) =
      (readItems n (c :: s)).map fun p => (.array p.1, p.2) := by
  have hskip : skipBlanks ('[' :: c :: s) = '[' :: c :: s := rfl
  rw [readValue, hskip]
  simp only [skipBlanks_cons hblank]
  split
  · rename_i heq
    exact absurd (List.cons.inj heq).1 hne
  · rfl

theorem readValue_object (n : Nat) (s : List Char) :
    readValue (n + 1) ('\x7b' :: '"' :: s) =
      (readFields n ('"' :: s)).map fun p => (.object p.1, p.2) := by
  simp [readValue, skipBlanks, isBlank]

theorem render_pos {v : Value} (h : v.Exact) : 0 < v.render.length := by
  obtain ⟨c, s, hrender, -⟩ := render_head h
  simp [hrender]

theorem renderItems_head {v : Value} (h : v.Exact) (vs : List Value) :
    ∃ c s, commaSeparated (render.renderItems (v :: vs)) = c :: s ∧
      isBlank c = false ∧ c ≠ ']' := by
  obtain ⟨c, s, hrender, hc⟩ := render_head h
  cases vs with
  | nil => exact ⟨c, s, hrender, hc⟩
  | cons w ws => exact ⟨c, _, congrArg (· ++ _) hrender, hc⟩

/-- The text of one field of an object. -/
def fieldText (k : String) (v : Value) : List Char := renderString k ++ ':' :: v.render

/-- What stands between the braces of an object. -/
def fieldsText (fs : List (String × Value)) : List Char :=
  commaSeparated ((render.renderFields fs).map fun f => renderString f.1 ++ ':' :: f.2)

theorem fieldsText_single (k : String) (v : Value) : fieldsText [(k, v)] = fieldText k v := rfl

theorem fieldsText_cons (k : String) (v : Value) (f : String × Value)
    (fs : List (String × Value)) :
    fieldsText ((k, v) :: f :: fs) = fieldText k v ++ ',' :: fieldsText (f :: fs) := rfl

theorem fieldsText_head (f : String × Value) (fs : List (String × Value)) :
    ∃ s, fieldsText (f :: fs) = '"' :: s := by
  cases fs with
  | nil => exact ⟨_, rfl⟩
  | cons g gs => exact ⟨_, rfl⟩

theorem fieldText_append (k : String) (v : Value) (rest : List Char) :
    fieldText k v ++ rest = '"' :: (rawText k ++ '"' :: ':' :: (v.render ++ rest)) := by
  simp [fieldText, renderString, rawText]

theorem readFields_last {n : Nat} {v : Value} {w : Written} {rest : List Char}
    (h : readValue n (v.render ++ '\x7d' :: rest) = some (w, '\x7d' :: rest)) (k : String) :
    readFields (n + 1) (fieldText k v ++ '\x7d' :: rest) = some ([(rawText k, w)], rest) := by
  rw [fieldText_append, readFields, skipBlanks_cons (by decide)]
  simp only [readString_key, skipBlanks_cons (c := ':') rfl, h, skipBlanks_cons (c := '\x7d') rfl]

theorem readFields_more {n : Nat} {v : Value} {w : Written} {rest : List Char}
    (h : readValue n (v.render ++ ',' :: rest) = some (w, ',' :: rest)) (k : String) :
    readFields (n + 1) (fieldText k v ++ ',' :: rest) =
      (readFields n rest).map fun p => ((rawText k, w) :: p.1, p.2) := by
  rw [fieldText_append, readFields, skipBlanks_cons (by decide)]
  simp only [readString_key, skipBlanks_cons (c := ':') rfl, h, skipBlanks_cons (c := ',') rfl]

theorem delimited_of_head {c : Char} (h : c = ',' ∨ c = ']' ∨ c = '\x7d') (s : List Char) :
    Delimited (c :: s) := by
  intro d hd
  obtain rfl : c = d := by simpa using hd
  exact h

-- One theorem for each of the readers, by recursion on the value. An array spends one count on
-- itself, one on each item and one on the comma or bracket after it, hence the odd bounds.
mutual

/-- A value's text is read as the value's document, whatever may follow it. -/
theorem readValue_render : ∀ (v : Value) (n : Nat) (rest : List Char), v.Exact →
    2 * v.render.length ≤ n → Delimited rest →
    readValue n (v.render ++ rest) = some (v.written, rest)
  | v, 0, _, hv, hn, _ => absurd hn (by have := render_pos hv; omega)
  | .null, n + 1, rest, _, _, _ => by simp [render, readValue, skipBlanks, isBlank, written]
  | .bool true, n + 1, rest, _, _, _ => by simp [render, readValue, skipBlanks, isBlank, written]
  | .bool false, n + 1, rest, _, _, _ => by simp [render, readValue, skipBlanks, isBlank, written]
  | .integer i, n + 1, rest, hv, _, hrest => by
    obtain ⟨c, s, htext, hstart⟩ := renderInt_head i
    have hread := readNumeral_renderInt i hrest
    rw [render]
    rw [htext, List.cons_append] at hread ⊢
    rw [readValue_numeral n hstart, hread]
    rfl
  | .decimal _, _, _, hv, _, _ => hv.elim
  | .string s, n + 1, rest, _, _, _ => by
    have htext : render (.string s) ++ rest = '"' :: (rawText s ++ '"' :: rest) := by
      simp [render, renderString, rawText]
    rw [htext, readValue, skipBlanks_cons (by decide)]
    simp [readString_key, written]
  | .array [], n + 1, rest, _, _, _ => by
    simp [render, render.renderItems, bracketed, commaSeparated, readValue, skipBlanks, isBlank,
      written, written.writtenItems]
  | .array (v :: vs), n + 1, rest, hv, hn, hrest => by
    have htext : render (.array (v :: vs)) ++ rest =
        '[' :: (commaSeparated (render.renderItems (v :: vs)) ++ ']' :: rest) := by
      simp [render, bracketed]
    have hfuel : 2 * (commaSeparated (render.renderItems (v :: vs))).length + 1 ≤ n := by
      simp only [render, bracketed, List.length_append, List.length_cons, List.length_nil] at hn
      omega
    have hread := readItems_render v vs n rest hv hfuel
    obtain ⟨c, s, hhead, hblank, hne⟩ := renderItems_head hv.1 vs
    rw [htext]
    rw [hhead, List.cons_append] at hread ⊢
    rw [readValue_array n hblank hne, hread]
    rfl
  | .object [], n + 1, rest, _, _, _ => by
    simp [render, render.renderFields, braced, commaSeparated, readValue, skipBlanks, isBlank,
      written, written.writtenFields]
  | .object (f :: fs), n + 1, rest, hv, hn, hrest => by
    have htext : render (.object (f :: fs)) ++ rest =
        '\x7b' :: (fieldsText (f :: fs) ++ '\x7d' :: rest) := by
      simp [render, braced, fieldsText]
    have hfuel : 2 * (fieldsText (f :: fs)).length + 1 ≤ n := by
      simp only [render, braced, List.length_append, List.length_cons, List.length_nil] at hn
      simp only [fieldsText]
      omega
    have hread := readFields_render f fs n rest hv hfuel
    obtain ⟨s, hhead⟩ := fieldsText_head f fs
    rw [htext]
    rw [hhead, List.cons_append] at hread ⊢
    rw [readValue_object, hread]
    rfl

/-- The texts of an array's items are read up to the closing bracket. -/
theorem readItems_render : ∀ (v : Value) (vs : List Value) (n : Nat) (rest : List Char),
    Exact.ExactItems (v :: vs) →
    2 * (commaSeparated (render.renderItems (v :: vs))).length + 1 ≤ n →
    readItems n (commaSeparated (render.renderItems (v :: vs)) ++ ']' :: rest) =
      some (written.writtenItems (v :: vs), rest)
  | v, [], n + 1, rest, hv, hn => by
    have hread := readValue_render v n _ hv.1
      (by simpa [render.renderItems, commaSeparated] using hn)
      (delimited_of_head (.inr (.inl rfl)) rest)
    simp only [render.renderItems, commaSeparated, readItems, hread]
    rfl
  | v, w :: ws, n + 1, rest, hv, hn => by
    have htext : commaSeparated (render.renderItems (v :: w :: ws)) =
        v.render ++ ',' :: commaSeparated (render.renderItems (w :: ws)) := rfl
    rw [htext, List.length_append, List.length_cons] at hn
    have hread := readValue_render v n _ hv.1 (by omega)
      (delimited_of_head (.inl rfl) (commaSeparated (render.renderItems (w :: ws)) ++ ']' :: rest))
    have hitems := readItems_render w ws n rest hv.2 (by omega)
    rw [htext, List.append_assoc, List.cons_append, readItems, hread]
    simp only [skipBlanks_cons (c := ',') rfl, hitems]
    rfl

/-- The texts of an object's fields are read up to the closing brace. -/
theorem readFields_render : ∀ (f : String × Value) (fs : List (String × Value)) (n : Nat)
    (rest : List Char), Exact.ExactFields (f :: fs) → 2 * (fieldsText (f :: fs)).length + 1 ≤ n →
    readFields n (fieldsText (f :: fs) ++ '\x7d' :: rest) =
      some (written.writtenFields (f :: fs), rest)
  | (k, v), [], n + 1, rest, hv, hn => by
    have hread := readValue_render v n _ hv.1 (by
      simp only [fieldsText_single, fieldText, List.length_append, List.length_cons] at hn
      omega)
      (delimited_of_head (.inr (.inr rfl)) rest)
    rw [fieldsText_single, readFields_last hread]
    rfl
  | (k, v), f :: fs, n + 1, rest, hv, hn => by
    rw [fieldsText_cons] at hn ⊢
    simp only [fieldText, List.length_append, List.length_cons] at hn
    have hread := readValue_render v n _ hv.1 (by omega)
      (delimited_of_head (.inl rfl) (fieldsText (f :: fs) ++ '\x7d' :: rest))
    have hfields := readFields_render f fs n rest hv.2 (by omega)
    rw [List.append_assoc, List.cons_append, readFields_more hread, hfields]
    rfl

end

/-- A value's text is the value's document, and nothing else. -/
theorem ofChars?_render {v : Value} (h : v.Exact) : ofChars? v.render = some v.written := by
  have hread := readValue_render v (2 * v.render.length + 2) [] h (by omega)
    (by simp [Delimited])
  rw [List.append_nil] at hread
  rw [ofChars?, hread]
  rfl

/-! ## Values -/

theorem insertField_of_forall_lt {k : String} {fs : List (String × Value)}
    (h : ∀ f ∈ fs, f.1 < k) (v : Value) : insertField k v fs = fs ++ [(k, v)] := by
  induction fs with
  | nil => rfl
  | cons f fs ih =>
    have hlt : f.1 < k := h f List.mem_cons_self
    have hne : k ≠ f.1 := fun heq => String.lt_irrefl k (heq ▸ hlt)
    rw [insertField, if_neg (String.lt_asymm hlt), if_neg hne, ih fun g hg =>
      h g (List.mem_cons_of_mem f hg), List.cons_append]

/-- Fields in the order of their keys are kept as they are. -/
theorem ofFields_of_pairwise {fs : List (String × Value)}
    (h : (fs.map Prod.fst).Pairwise (· < ·)) : ofFields fs = .object fs := by
  have hfold : ∀ (fs done : List (String × Value)),
      ((done ++ fs).map Prod.fst).Pairwise (· < ·) →
      fs.foldl (fun fs f => insertField f.1 f.2 fs) done = done ++ fs := by
    intro fs
    induction fs with
    | nil => exact fun done _ => (List.append_nil done).symm
    | cons f fs ih =>
      intro done hdone
      have hlast : ∀ g ∈ done, g.1 < f.1 := by
        intro g hg
        rw [List.map_append, List.pairwise_append] at hdone
        exact hdone.2.2 g.1 (List.mem_map_of_mem hg) f.1 (by simp)
      rw [List.foldl_cons, insertField_of_forall_lt hlast, ih (done ++ [f]) (by simpa using hdone)]
      simp
  exact congrArg Value.object (hfold fs [] h)

theorem mem_insertField {k : String} {v : Value} {fs : List (String × Value)}
    {g : String × Value} (h : g ∈ insertField k v fs) : g = (k, v) ∨ g ∈ fs := by
  induction fs with
  | nil => exact .inl (List.mem_singleton.mp h)
  | cons f fs ih =>
    simp only [insertField] at h
    split at h
    · exact List.mem_cons.mp h
    · split at h
      · exact (List.mem_cons.mp h).imp_right (List.mem_cons_of_mem f)
      · rcases List.mem_cons.mp h with rfl | hg
        · exact .inr List.mem_cons_self
        · exact (ih hg).imp_right (List.mem_cons_of_mem f)

theorem pairwise_insertField (k : String) (v : Value) {fs : List (String × Value)}
    (h : (fs.map Prod.fst).Pairwise (· < ·)) :
    ((insertField k v fs).map Prod.fst).Pairwise (· < ·) := by
  induction fs with
  | nil => exact List.pairwise_singleton _ _
  | cons f fs ih =>
    have hcons := h
    rw [List.map_cons, List.pairwise_cons] at h
    rw [insertField]
    split
    · rename_i hlt
      rw [List.map_cons, List.pairwise_cons]
      refine ⟨fun j hj => ?_, hcons⟩
      rcases List.mem_cons.mp hj with rfl | hj
      · exact hlt
      · exact String.lt_trans hlt (h.1 j hj)
    · split
      · rename_i heq
        rw [List.map_cons, List.pairwise_cons]
        exact ⟨heq ▸ h.1, h.2⟩
      · rename_i hnlt hne
        have hgt : f.1 < k := Classical.byContradiction fun hngt =>
          hne (String.le_antisymm (String.not_lt.mp hngt) (String.not_lt.mp hnlt))
        rw [List.map_cons, List.pairwise_cons]
        refine ⟨fun j hj => ?_, ih h.2⟩
        obtain ⟨g, hg, rfl⟩ := List.mem_map.mp hj
        rcases mem_insertField hg with rfl | hg
        · exact hgt
        · exact h.1 g.1 (List.mem_map_of_mem hg)

/-- An object has its keys in order, and no fields but those that it is made of. -/
theorem exists_ofFields (fs : List (String × Value)) : ∃ gs, ofFields fs = .object gs ∧
    (gs.map Prod.fst).Pairwise (· < ·) ∧ ∀ g ∈ gs, g ∈ fs := by
  have hfold : ∀ (rest done : List (String × Value)), (∀ f ∈ rest, f ∈ fs) →
      (done.map Prod.fst).Pairwise (· < ·) → (∀ f ∈ done, f ∈ fs) →
      ((rest.foldl (fun fs f => insertField f.1 f.2 fs) done).map Prod.fst).Pairwise (· < ·) ∧
        ∀ g ∈ rest.foldl (fun fs f => insertField f.1 f.2 fs) done, g ∈ fs := by
    intro rest
    induction rest with
    | nil => exact fun done _ hkeys hdone => ⟨hkeys, hdone⟩
    | cons f rest ih =>
      intro done hrest hkeys hdone
      refine ih _ (fun g hg => hrest g (List.mem_cons_of_mem f hg))
        (pairwise_insertField f.1 f.2 hkeys) fun g hg => ?_
      rcases mem_insertField hg with rfl | hg
      · exact hrest f List.mem_cons_self
      · exact hdone g hg
  exact ⟨_, rfl, hfold fs [] (fun _ hf => hf) List.Pairwise.nil
    fun f hf => absurd hf List.not_mem_nil⟩

theorem inOrderItems_iff (vs : List Value) :
    InOrder.InOrderItems vs ↔ ∀ v ∈ vs, v.InOrder := by
  induction vs with
  | nil => simp [InOrder.InOrderItems]
  | cons v vs ih => simp [InOrder.InOrderItems, ih]

theorem inOrderFields_iff (fs : List (String × Value)) :
    InOrder.InOrderFields fs ↔ ∀ f ∈ fs, f.2.InOrder := by
  induction fs with
  | nil => simp [InOrder.InOrderFields]
  | cons f fs ih => simp [InOrder.InOrderFields, ih]

namespace Written

/-- How deep arrays and objects are nested in a document. -/
def nesting : Written → Nat
  | .array items => nestingItems items + 1
  | .object fields => nestingFields fields + 1
  | _ => 0
where
  nestingItems : List Written → Nat
    | [] => 0
    | w :: ws => max (nesting w) (nestingItems ws)
  nestingFields : List (List Char × Written) → Nat
    | [] => 0
    | (_, w) :: fs => max (nesting w) (nestingFields fs)

end Written

open Written (nesting nesting.nestingItems nesting.nestingFields)

mutual

/-- A value's document has that value, wherever its nesting is allowed. -/
theorem value?_written : ∀ (v : Value) (depth : Nat), v.Exact → v.InOrder →
    nesting v.written ≤ depth → v.written.value? depth = some v
  | .null, _, _, _, _ => rfl
  | .bool _, _, _, _, _ => rfl
  | .integer _, _, hv, _, _ => Numeral.value?_ofInt hv
  | .decimal _, _, hv, _, _ => hv.elim
  | .string s, _, _, _, _ => by simp [written, value?]
  | .array items, depth, hv, horder, hdepth => by
    simp only [written, nesting] at hdepth
    have hitems := values?_written items (depth - 1) hv horder (by omega)
    rw [written, Written.value?, if_neg (by omega), hitems]
    rfl
  | .object fields, depth, hv, horder, hdepth => by
    simp only [written, nesting] at hdepth
    have hfields := fieldValues?_written fields (depth - 1) hv horder.2 (by omega)
    rw [written, Written.value?, if_neg (by omega), hfields]
    exact congrArg some (ofFields_of_pairwise horder.1)

theorem values?_written : ∀ (vs : List Value) (depth : Nat), Exact.ExactItems vs →
    InOrder.InOrderItems vs → nesting.nestingItems (written.writtenItems vs) ≤ depth →
    values? depth (written.writtenItems vs) = some vs
  | [], _, _, _, _ => rfl
  | v :: vs, depth, hv, horder, hdepth => by
    have hdepth := Nat.max_le.mp hdepth
    rw [written.writtenItems, values?, value?_written v depth hv.1 horder.1 hdepth.1,
      values?_written vs depth hv.2 horder.2 hdepth.2]

theorem fieldValues?_written : ∀ (fs : List (String × Value)) (depth : Nat),
    Exact.ExactFields fs → InOrder.InOrderFields fs →
    nesting.nestingFields (written.writtenFields fs) ≤ depth →
    fieldValues? depth (written.writtenFields fs) = some fs
  | [], _, _, _, _ => rfl
  | (k, v) :: fs, depth, hv, horder, hdepth => by
    have hdepth := Nat.max_le.mp hdepth
    rw [written.writtenFields, fieldValues?, stringOf?_rawText,
      value?_written v depth hv.1 horder.1 hdepth.1,
      fieldValues?_written fs depth hv.2 horder.2 hdepth.2]

end

/-- Every value that can be written without loss is read back from its text. -/
theorem ofText?_text {v : Value} {depth : Nat} (hv : v.Exact) (horder : v.InOrder)
    (hdepth : nesting v.written ≤ depth) : Value.ofText? depth v.text = some v := by
  rw [Value.ofText?, Value.text, String.toList_ofList, ofChars?_render hv, Option.bind_some,
    value?_written v depth hv horder hdepth]

end SessionBroker.Json
