import SessionBroker.Proofs.JsonFormat

/-!
# Equal JSON values

`Value.same` compares values as they are stored: fields place by place, and numbers by their parts.
What it decides is told here without looking at how values are stored. Numbers of the binary64 format
are compared as the numbers that they are, arrays item by item, and objects by their keys and by
the value under each key, in whatever order.

The comparison of parts is right because of how values are stored: the fields of an object stand in
the order of their keys, and a binary64 number has one significand and exponent, but for zero, which
has two signs.
-/

namespace SessionBroker

/-! ## Numbers -/

namespace Binary64

variable {x y : Binary64}

/-- The exponent above the smallest one. -/
def shift (x : Binary64) : Nat := (x.exponent + 1074).toNat

/-- The number without its sign, in units of `2 ^ (-1074)`. All numbers of the format are multiples
of that. -/
def magnitude (x : Binary64) : Nat := x.significand * 2 ^ x.shift

/-- The number, in the same units. -/
def scaled (x : Binary64) : Int := if x.negative then -x.magnitude else x.magnitude

theorem isZero_iff (x : Binary64) : x.isZero = true ↔ x.magnitude = 0 := by
  unfold isZero magnitude
  rw [beq_iff_eq, Nat.mul_eq_zero]
  have hpos : 2 ^ x.shift ≠ 0 := Nat.ne_of_gt (Nat.two_pow_pos x.shift)
  exact ⟨.inl, fun h => h.resolve_right hpos⟩

theorem shift_le_of_magnitude (hx : x.InFormat) (hy : y.InFormat) (h : x.magnitude = y.magnitude) :
    y.shift ≤ x.shift := by
  refine Nat.le_of_not_lt fun hlt => ?_
  -- a larger exponent is needed by a large significand only
  have hlarge : 2 ^ 52 ≤ y.significand := hy.least.resolve_right fun hexp => by
    unfold shift at hlt
    omega
  obtain ⟨d, hd⟩ := Nat.exists_eq_add_of_lt hlt
  have hfactor : x.significand = y.significand * 2 ^ (d + 1) := by
    unfold magnitude at h
    rw [hd, Nat.add_assoc, Nat.pow_add, Nat.mul_left_comm, Nat.mul_comm (2 ^ x.shift)] at h
    exact Nat.eq_of_mul_eq_mul_right (Nat.two_pow_pos x.shift) h
  have hdouble : 2 ^ 52 * 2 ≤ y.significand * 2 ^ (d + 1) := by
    refine Nat.mul_le_mul hlarge ?_
    rw [Nat.pow_succ]
    exact Nat.le_mul_of_pos_left 2 (Nat.two_pow_pos d)
  have hlt := hx.significand_lt
  omega

theorem parts_eq_of_magnitude (hx : x.InFormat) (hy : y.InFormat) (h : x.magnitude = y.magnitude) :
    x.significand = y.significand ∧ x.exponent = y.exponent := by
  have hshift : x.shift = y.shift :=
    Nat.le_antisymm (shift_le_of_magnitude hy hx h.symm) (shift_le_of_magnitude hx hy h)
  constructor
  · unfold magnitude at h
    rw [hshift] at h
    exact Nat.eq_of_mul_eq_mul_right (Nat.two_pow_pos y.shift) h
  · have hxge := hx.exponent_ge
    have hyge := hy.exponent_ge
    unfold shift at hshift
    omega

theorem sameNumber_iff (hx : x.InFormat) (hy : y.InFormat) :
    x.sameNumber y = true ↔ x.scaled = y.scaled := by
  unfold sameNumber
  rw [Bool.or_eq_true, Bool.and_eq_true, beq_iff_eq, isZero_iff, isZero_iff]
  unfold scaled
  constructor
  · rintro (rfl | ⟨hzero, hzero'⟩)
    · rfl
    · rw [hzero, hzero']
      simp
  · intro h
    by_cases hsign : x.negative = y.negative
    · have hmagnitude : x.magnitude = y.magnitude := by
        rw [hsign] at h
        split at h <;> omega
      obtain ⟨hsignificand, hexponent⟩ := parts_eq_of_magnitude hx hy hmagnitude
      left
      calc x = ⟨x.negative, x.significand, x.exponent⟩ := rfl
        _ = ⟨y.negative, y.significand, y.exponent⟩ := by rw [hsign, hsignificand, hexponent]
    · right
      cases hneg : x.negative <;> cases hneg' : y.negative <;> simp [hneg, hneg'] at h hsign <;> omega

end Binary64

/-! ## Values -/

namespace Json.Value

/-- Equality of the values that are meant. A whole number is not a binary64 number. -/
inductive Equal : Value → Value → Prop where
  | null : Equal .null .null
  | bool (b : Bool) : Equal (.bool b) (.bool b)
  | integer (i : Int) : Equal (.integer i) (.integer i)
  | decimal {x y : Binary64} (h : x.scaled = y.scaled) : Equal (.decimal x) (.decimal y)
  | string (s : String) : Equal (.string s) (.string s)
  | array {vs ws : List Value} (hlen : vs.length = ws.length)
      (h : ∀ (i : Nat) v w, vs[i]? = some v → ws[i]? = some w → Equal v w) :
      Equal (.array vs) (.array ws)
  | object {fs gs : List (String × Value)}
      (hkeys : ∀ k, k ∈ fs.map Prod.fst ↔ k ∈ gs.map Prod.fst)
      (h : ∀ k v w, (k, v) ∈ fs → (k, w) ∈ gs → Equal v w) : Equal (.object fs) (.object gs)

theorem sameItems_iff (vs ws : List Value) :
    same.sameItems vs ws = true ↔ vs.length = ws.length ∧
      ∀ (i : Nat) v w, vs[i]? = some v → ws[i]? = some w → v.same w = true := by
  induction vs generalizing ws with
  | nil => cases ws <;> simp [same.sameItems]
  | cons v vs ih =>
      cases ws with
      | nil => simp [same.sameItems]
      | cons w ws =>
          rw [same.sameItems, Bool.and_eq_true, ih]
          constructor
          · rintro ⟨hfirst, hlen, hrest⟩
            refine ⟨congrArg Nat.succ hlen, ?_⟩
            rintro (_ | i) v' w' hv hw
            · cases hv
              cases hw
              exact hfirst
            · exact hrest i v' w' hv hw
          · rintro ⟨hlen, hall⟩
            refine ⟨hall 0 v w rfl rfl, Nat.succ.inj hlen, ?_⟩
            intro i v' w' hv hw
            exact hall (i + 1) v' w' hv hw

/-- Fields are compared by their keys and, place by place, by their values. -/
theorem sameFields_iff (fs gs : List (String × Value)) :
    same.sameFields fs gs = true ↔ fs.map Prod.fst = gs.map Prod.fst ∧
      same.sameItems (fs.map Prod.snd) (gs.map Prod.snd) = true := by
  induction fs generalizing gs with
  | nil => cases gs <;> simp [same.sameFields, same.sameItems]
  | cons f fs ih =>
      cases gs with
      | nil => simp [same.sameFields]
      | cons g gs => simp [same.sameFields, same.sameItems, ih, and_assoc, and_left_comm]

theorem nodup_of_pairwise_lt {ks : List String} (h : ks.Pairwise (· < ·)) : ks.Nodup := by
  refine h.imp ?_
  rintro a _ hlt rfl
  exact String.lt_irrefl a hlt

/-- Keys in order are told by which keys there are. -/
theorem keys_eq_of_mem_iff {ks js : List String} (hks : ks.Pairwise (· < ·))
    (hjs : js.Pairwise (· < ·)) (h : ∀ k, k ∈ ks ↔ k ∈ js) : ks = js := by
  have hperm : ks.Perm js :=
    (List.perm_ext_iff_of_nodup (nodup_of_pairwise_lt hks) (nodup_of_pairwise_lt hjs)).mpr h
  exact hperm.eq_of_pairwise (fun a b _ _ hab hba => absurd hba (String.lt_asymm hab)) hks hjs

/-- Fields with the same keys have a key at the same place. -/
theorem exists_place {fs gs : List (String × Value)} (hkeys : fs.map Prod.fst = gs.map Prod.fst)
    (hnodup : (fs.map Prod.fst).Nodup) {k : String} {v w : Value} (hv : (k, v) ∈ fs)
    (hw : (k, w) ∈ gs) : ∃ i : Nat, fs[i]? = some (k, v) ∧ gs[i]? = some (k, w) := by
  obtain ⟨i, hi⟩ := List.mem_iff_getElem?.mp hv
  obtain ⟨j, hj⟩ := List.mem_iff_getElem?.mp hw
  have hki : (fs.map Prod.fst)[i]? = some k := by rw [List.getElem?_map, hi]; rfl
  have hkj : (fs.map Prod.fst)[j]? = some k := by rw [hkeys, List.getElem?_map, hj]; rfl
  obtain ⟨hlt, -⟩ := List.getElem?_eq_some_iff.mp hki
  obtain rfl := (List.getElem?_inj hlt hnodup).mp (hki.trans hkj.symm)
  exact ⟨i, hi, hj⟩

/-- Objects in order are the same if they have the same keys, and the same value under each. -/
theorem same_object_iff {fs gs : List (String × Value)} (hfs : (fs.map Prod.fst).Pairwise (· < ·))
    (hgs : (gs.map Prod.fst).Pairwise (· < ·)) :
    (Value.object fs).same (.object gs) = true ↔
      (∀ k, k ∈ fs.map Prod.fst ↔ k ∈ gs.map Prod.fst) ∧
        ∀ k v w, (k, v) ∈ fs → (k, w) ∈ gs → v.same w = true := by
  rw [same, sameFields_iff, sameItems_iff]
  constructor
  · rintro ⟨hkeys, -, hvalues⟩
    refine ⟨fun k => by rw [hkeys], ?_⟩
    intro k v w hv hw
    obtain ⟨i, hi, hj⟩ := exists_place hkeys (nodup_of_pairwise_lt hfs) hv hw
    exact hvalues i v w (by rw [List.getElem?_map, hi]; rfl) (by rw [List.getElem?_map, hj]; rfl)
  · rintro ⟨hmem, hvalues⟩
    have hkeys := keys_eq_of_mem_iff hfs hgs hmem
    refine ⟨hkeys, by simpa using congrArg List.length hkeys, ?_⟩
    intro i v w hv hw
    rw [List.getElem?_map, Option.map_eq_some_iff] at hv hw
    obtain ⟨⟨k, _⟩, hf, rfl⟩ := hv
    obtain ⟨⟨j, _⟩, hg, rfl⟩ := hw
    have hkey : (fs.map Prod.fst)[i]? = (gs.map Prod.fst)[i]? := by rw [hkeys]
    rw [List.getElem?_map, List.getElem?_map, hf, hg] at hkey
    cases hkey
    exact hvalues k _ _ (List.mem_of_getElem? hf) (List.mem_of_getElem? hg)

/-! ### Reflexivity -/

mutual

theorem same_refl : ∀ v : Value, v.same v = true
  | .null => rfl
  | .bool b => beq_self_eq_true b
  | .integer i => beq_self_eq_true i
  | .decimal x => by rw [same, Binary64.sameNumber, beq_self_eq_true, Bool.true_or]
  | .string s => beq_self_eq_true s
  | .array items => sameItems_refl items
  | .object fields => sameFields_refl fields

theorem sameItems_refl : ∀ vs : List Value, same.sameItems vs vs = true
  | [] => rfl
  | v :: vs => by rw [same.sameItems, same_refl v, sameItems_refl vs, Bool.and_self]

theorem sameFields_refl : ∀ fs : List (String × Value), same.sameFields fs fs = true
  | [] => rfl
  | (k, v) :: fs => by
      rw [same.sameFields, beq_self_eq_true, same_refl v, sameFields_refl fs, Bool.and_self,
        Bool.and_self]

end

/-- Values are the same if they are equal. -/
theorem same_iff_equal {v w : Value} (hv : v.WellFormed) (hw : w.WellFormed) :
    v.same w = true ↔ v.Equal w := by
  induction hv generalizing w with
  | null =>
      cases hw with
      | null => exact iff_of_true rfl .null
      | _ => exact iff_of_false (by simp [same]) (by rintro ⟨⟩)
  | bool b =>
      cases hw with
      | bool c =>
          rw [same, beq_iff_eq]
          constructor
          · rintro rfl
            exact .bool b
          · rintro ⟨⟩
            rfl
      | _ => exact iff_of_false (by simp [same]) (by rintro ⟨⟩)
  | integer i =>
      cases hw with
      | integer j =>
          rw [same, beq_iff_eq]
          constructor
          · rintro rfl
            exact .integer i
          · rintro ⟨⟩
            rfl
      | _ => exact iff_of_false (by simp [same]) (by rintro ⟨⟩)
  | decimal hx =>
      cases hw with
      | decimal hy =>
          rw [same, Binary64.sameNumber_iff hx hy]
          constructor
          · exact .decimal
          · rintro ⟨⟩
            assumption
      | _ => exact iff_of_false (by simp [same]) (by rintro ⟨⟩)
  | string s =>
      cases hw with
      | string t =>
          rw [same, beq_iff_eq]
          constructor
          · rintro rfl
            exact .string s
          · rintro ⟨⟩
            rfl
      | _ => exact iff_of_false (by simp [same]) (by rintro ⟨⟩)
  | array _ ih =>
      cases hw with
      | array hws =>
          rw [same, sameItems_iff]
          constructor
          · rintro ⟨hlen, hall⟩
            refine .array hlen fun i v w hv hw => ?_
            exact (ih v (List.mem_of_getElem? hv) (hws w (List.mem_of_getElem? hw))).mp
              (hall i v w hv hw)
          · intro h
            cases h with
            | array hlen hall =>
                refine ⟨hlen, fun i v w hv hw => ?_⟩
                exact (ih v (List.mem_of_getElem? hv) (hws w (List.mem_of_getElem? hw))).mpr
                  (hall i v w hv hw)
      | _ => exact iff_of_false (by simp [same]) (by rintro ⟨⟩)
  | object hfs _ ih =>
      cases hw with
      | object hgs hws =>
          rw [same_object_iff hfs hgs]
          constructor
          · rintro ⟨hkeys, hall⟩
            refine .object hkeys fun k v w hv hw => ?_
            exact (ih (k, v) hv (hws (k, w) hw)).mp (hall k v w hv hw)
          · intro h
            cases h with
            | object hkeys hall =>
                refine ⟨hkeys, fun k v w hv hw => ?_⟩
                exact (ih (k, v) hv (hws (k, w) hw)).mpr (hall k v w hv hw)
      | _ => exact iff_of_false (by simp [same]) (by rintro ⟨⟩)

end Json.Value

end SessionBroker
