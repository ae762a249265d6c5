import Mathlib.Data.List.Perm.Subperm
import SessionBroker.Cluster.PoolProperties
import SessionBroker.Proofs.Holdings
import SessionBroker.Proofs.JsonEquality

/-!
# Properties by their settings

Properties are made by setting one key after the other. What is set last for a key counts; where
the key stands is told by the first time it was set. Equality asks for the values only, so that
settings may be made in another order, as long as the last one for each key stays.
-/

namespace SessionBroker

/-! ## Maps with the same entries -/

namespace OrderedMap

variable {κ α : Type} [DecidableEq κ] {m n : OrderedMap κ α}

omit [DecidableEq κ] in
/-- Keys that are all among those of a map of the same size are all of its keys. -/
theorem keys_perm_of_subset (hlen : m.entries.length = n.entries.length) (h : m.keys ⊆ n.keys) :
    m.keys.Perm n.keys := by
  have hkeys : n.keys.length = m.keys.length := by
    rw [keys, keys, List.length_map, List.length_map, hlen]
  exact (m.nodup_keys.subperm h).perm_of_length_le (Nat.le_of_eq hkeys)

theorem sameEntries_iff (same : α → α → Bool) (m n : OrderedMap κ α) :
    m.sameEntries same n = true ↔ (∀ k, k ∈ m.keys ↔ k ∈ n.keys) ∧
      ∀ k a b, m.get? k = some a → n.get? k = some b → same a b = true := by
  unfold sameEntries
  rw [Bool.and_eq_true, beq_iff_eq, List.all_eq_true]
  constructor
  · rintro ⟨hlen, hall⟩
    have hfound : ∀ k a, (k, a) ∈ m.entries → ∃ b, n.get? k = some b ∧ same a b = true := by
      intro k a hmem
      have hentry := hall (k, a) hmem
      dsimp only at hentry
      split at hentry
      · cases hentry
      next b hb => exact ⟨b, hb, hentry⟩
    have hsubset : m.keys ⊆ n.keys := by
      intro k hk
      obtain ⟨a, ha⟩ := exists_get?_iff.mpr hk
      obtain ⟨b, hb, -⟩ := hfound k a (get?_eq_some_iff.mp ha)
      exact exists_get?_iff.mp ⟨b, hb⟩
    refine ⟨fun k => (keys_perm_of_subset hlen hsubset).mem_iff, ?_⟩
    intro k a b ha hb
    obtain ⟨b', hb', hsame⟩ := hfound k a (get?_eq_some_iff.mp ha)
    cases hb.symm.trans hb'
    exact hsame
  · rintro ⟨hkeys, hvalues⟩
    have hperm : m.keys.Perm n.keys :=
      (List.perm_ext_iff_of_nodup m.nodup_keys n.nodup_keys).mpr hkeys
    refine ⟨by simpa [keys] using hperm.length_eq, ?_⟩
    rintro ⟨k, a⟩ hmem
    have ha := get?_eq_some_iff.mpr hmem
    obtain ⟨b, hb⟩ := exists_get?_iff.mpr ((hkeys k).mp (exists_get?_iff.mp ⟨a, ha⟩))
    dsimp only
    rw [hb]
    exact hvalues k a b ha hb

end OrderedMap

/-! ## Settings -/

namespace PoolProperties

/-- A key and the value that it is set to. -/
abbrev Setting := String × Json.Value

/-- Properties that are set one after the other. -/
def built (poolType : String) (settings : List Setting) : PoolProperties :=
  settings.foldl (fun p s => p.set s.1 s.2) (new poolType)

/-- The value that a key is set to last. -/
def lastSet? (key : String) (settings : List Setting) : Option Json.Value :=
  OrderedMap.last? key settings

section Built

variable {kind kind' : String} {settings settings' : List Setting}

theorem built_eq (kind : String) (settings : List Setting) :
    built kind settings = ⟨kind, .ofList settings⟩ :=
  List.foldl_hom (PoolProperties.mk kind) fun _ _ => rfl

theorem keys_built (kind : String) (settings : List Setting) :
    (built kind settings).props.keys = (settings.map Prod.fst).eraseDups := by
  rw [built_eq]
  exact OrderedMap.keys_ofList settings

theorem get?_built (kind : String) (settings : List Setting) (key : String) :
    (built kind settings).get? key = lastSet? key settings := by
  rw [built_eq]
  exact OrderedMap.get?_ofList settings key

theorem same_iff (p q : PoolProperties) :
    p.same q = true ↔ p.poolType = q.poolType ∧ (∀ key, key ∈ p.props.keys ↔ key ∈ q.props.keys) ∧
      ∀ key v w, p.get? key = some v → q.get? key = some w → v.same w = true := by
  unfold same
  rw [Bool.and_eq_true, beq_iff_eq, OrderedMap.sameEntries_iff]
  rfl

theorem mem_keys_built (key : String) :
    key ∈ (built kind settings).props.keys ↔ key ∈ settings.map Prod.fst := by
  rw [keys_built, List.mem_eraseDups]

/-- A value that is set last is one of those that are set. -/
theorem mem_of_lastSet? {key : String} {v : Json.Value} (h : lastSet? key settings = some v) :
    (key, v) ∈ settings := by
  unfold lastSet? OrderedMap.last? at h
  rw [Option.map_eq_some_iff] at h
  obtain ⟨⟨key', _⟩, hlast, rfl⟩ := h
  obtain ⟨hmem, hkey⟩ := List.mem_filter.mp (List.mem_of_getLast? hlast)
  obtain rfl : key' = key := by simpa using hkey
  exact hmem

theorem built_same_iff : (built kind settings).same (built kind' settings') = true ↔
    kind = kind' ∧ (∀ key, key ∈ settings.map Prod.fst ↔ key ∈ settings'.map Prod.fst) ∧
      ∀ key v w, lastSet? key settings = some v → lastSet? key settings' = some w →
        v.same w = true := by
  rw [same_iff]
  simp only [mem_keys_built, get?_built]
  rw [built_eq, built_eq]

/-- To which properties some are the same is told by the kind, the keys and the value of each. -/
theorem same_congr {p q : PoolProperties} (htype : p.poolType = q.poolType)
    (hget : ∀ key, p.get? key = q.get? key) (other : PoolProperties) :
    p.same other = q.same other ∧ other.same p = other.same q := by
  have hkeys : ∀ key, key ∈ p.props.keys ↔ key ∈ q.props.keys := by
    intro key
    rw [← OrderedMap.exists_get?_iff, ← OrderedMap.exists_get?_iff]
    exact exists_congr fun v => by rw [show p.props.get? key = q.props.get? key from hget key]
  constructor
  · rw [Bool.eq_iff_iff, same_iff, same_iff]
    simp only [htype, hkeys, hget]
  · rw [Bool.eq_iff_iff, same_iff, same_iff]
    simp only [htype, hkeys, hget]

theorem same_self (p : PoolProperties) : p.same p = true := by
  rw [same_iff]
  refine ⟨rfl, fun _ => Iff.rfl, ?_⟩
  intro key v w hv hw
  cases hv.symm.trans hw
  exact v.same_refl

end Built

end PoolProperties

/-! ## Main result -/

section MainResult

open PoolProperties

/-- What two series of settings come to. -/
structure ToldByLastSettings (kind kind' : String) (settings settings' : List Setting) : Prop where
  same_iff : (built kind settings).same (built kind' settings') = true ↔
    kind = kind' ∧ (∀ key, key ∈ settings.map Prod.fst ↔ key ∈ settings'.map Prod.fst) ∧
      ∀ key v w, lastSet? key settings = some v → lastSet? key settings' = some w →
        v.same w = true
  /-- The values are compared as the values that they are, however they are stored. -/
  equal_iff : (∀ s ∈ settings, s.2.WellFormed) → (∀ s ∈ settings', s.2.WellFormed) →
    ((built kind settings).same (built kind' settings') = true ↔
      kind = kind' ∧ (∀ key, key ∈ settings.map Prod.fst ↔ key ∈ settings'.map Prod.fst) ∧
        ∀ key v w, lastSet? key settings = some v → lastSet? key settings' = some w → v.Equal w)
  /-- Settings in another order, or other ones before the last of each key, make no difference. -/
  reordered : (∀ key, lastSet? key settings = lastSet? key settings') →
    (built kind settings).same (built kind settings') = true ∧
      ∀ other, (built kind settings).same other = (built kind settings').same other ∧
        other.same (built kind settings) = other.same (built kind settings')
  keys_eq : (built kind settings).props.keys = (settings.map Prod.fst).eraseDups
  get?_eq : ∀ key, (built kind settings).get? key = lastSet? key settings

/-- Properties are told by the last setting of each key. A whole number is not the same as a binary64
number, and the values of texts are stored as they should be. -/
theorem told_by_last_settings (kind kind' : String) (settings settings' : List Setting) :
    ToldByLastSettings kind kind' settings settings' ∧
      (∀ i x, (Json.Value.integer i).same (.decimal x) = false ∧
        (Json.Value.decimal x).same (.integer i) = false) ∧
      ∀ depth text v, Json.Value.ofText? depth text = some v → v.WellFormed := by
  refine ⟨?_, ?_, ?_⟩
  · constructor
    case same_iff => exact built_same_iff
    case equal_iff =>
      intro hsettings hsettings'
      rw [built_same_iff]
      refine and_congr_right fun _ => and_congr_right fun _ => ?_
      refine forall_congr' fun key => forall_congr' fun v => forall_congr' fun w => ?_
      refine forall_congr' fun hv => forall_congr' fun hw => ?_
      exact Json.Value.same_iff_equal (hsettings _ (mem_of_lastSet? hv))
        (hsettings' _ (mem_of_lastSet? hw))
    case reordered =>
      intro hlast
      have htype : (built kind settings).poolType = (built kind settings').poolType := by
        rw [built_eq, built_eq]
      have hget : ∀ key, (built kind settings).get? key = (built kind settings').get? key := by
        intro key
        rw [get?_built, get?_built, hlast key]
      refine ⟨?_, same_congr htype hget⟩
      rw [(same_congr htype hget _).1]
      exact same_self _
    case keys_eq => exact keys_built kind settings
    case get?_eq => exact get?_built kind settings
  · intro i x
    exact ⟨rfl, rfl⟩
  · intro depth text v hread
    exact Json.wellFormed_of_ofText? hread

/-- A key is set to a whole number and later to an object; another one is set to zero. -/
def overwritten : List Setting :=
  [("limits", .integer 1), ("ratio", .decimal (.zero false)),
    ("limits", .object [("max", .integer 8), ("min", .null)])]

def rearranged : List Setting :=
  [("ratio", .decimal (.zero false)), ("limits", .integer 1),
    ("limits", .object [("max", .integer 8), ("min", .null)])]

/-- The last settings alone, with the other zero. -/
def lastOnly : List Setting :=
  [("ratio", .decimal (.zero true)), ("limits", .object [("max", .integer 8), ("min", .null)])]

theorem overwritten_told :
    ((∀ s ∈ overwritten, s.2.WellFormed) ∧ (∀ s ∈ lastOnly, s.2.WellFormed) ∧
      (built "pool" overwritten).same (built "pool" lastOnly) = true ∧
      ∀ key v w, lastSet? key overwritten = some v → lastSet? key lastOnly = some w →
        v.Equal w) ∧
    (∀ key, lastSet? key overwritten = lastSet? key rearranged) ∧
      (built "pool" overwritten).same (built "pool" rearranged) = true := by
  have hlimits : (Json.Value.object [("max", .integer 8), ("min", .null)]).WellFormed := by
    refine .object (by decide) ?_
    exact List.forall_mem_cons.mpr ⟨.integer 8, List.forall_mem_singleton.mpr .null⟩
  have hoverwritten : ∀ s ∈ overwritten, s.2.WellFormed :=
    List.forall_mem_cons.mpr ⟨.integer 1, List.forall_mem_cons.mpr ⟨.decimal (.zero false),
      List.forall_mem_singleton.mpr hlimits⟩⟩
  have hlastOnly : ∀ s ∈ lastOnly, s.2.WellFormed :=
    List.forall_mem_cons.mpr ⟨.decimal (.zero true), List.forall_mem_singleton.mpr hlimits⟩
  have hsame : (built "pool" overwritten).same (built "pool" lastOnly) = true := by decide +kernel
  obtain ⟨-, -, hequal⟩ := ((told_by_last_settings "pool" "pool" overwritten lastOnly).1.equal_iff
    hoverwritten hlastOnly).mp hsame
  have hlast : ∀ key, lastSet? key overwritten = lastSet? key rearranged := by
    intro key
    by_cases hlimits : "limits" = key <;> by_cases hratio : "ratio" = key <;>
      simp [lastSet?, OrderedMap.last?, overwritten, rearranged, hlimits, hratio]
  exact ⟨⟨hoverwritten, hlastOnly, hsame, hequal⟩, hlast,
    ((told_by_last_settings "pool" "pool" overwritten rearranged).1.reordered hlast).1⟩

end MainResult

end SessionBroker
