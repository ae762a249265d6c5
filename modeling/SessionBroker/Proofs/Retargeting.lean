import Mathlib.Data.List.DropRight
import SessionBroker.Proofs.Derivation

/-!
# Urls pointed at nodes

A url is pointed at a node by what stands before its first `//`, the scheme, and by what stands
from its first `?` on, the query. The two are searched for independently of each other, in any
text. The new url has the same scheme, as no `//` can arise before the one that is written; but it
has the same query only if there is no `?` in what is written before the query.

So a url can be pointed from node to node without a loss just when neither its scheme nor the ids
and schemas on the way hold a `?`. Then only the last node counts.
-/

namespace SessionBroker

/-! ## First occurrences -/

namespace Text

variable {α : Type} {needle text text' before before' after : List α} {c : α}

/-- What stands before the first occurrence of the needle. -/
structure BeforeFirst (needle text before : List α) : Prop where
  occurs : before ++ needle <+: text
  first : ∀ p, p ++ needle <+: text → before.length ≤ p.length

namespace BeforeFirst

theorem unique (h : BeforeFirst needle text before) (h' : BeforeFirst needle text before') :
    before = before' := by
  have hprefix : before <+: text := (List.prefix_append before needle).trans h.occurs
  have hprefix' : before' <+: text := (List.prefix_append before' needle).trans h'.occurs
  have hlength : before.length = before'.length :=
    Nat.le_antisymm (h.first before' h'.occurs) (h'.first before h.occurs)
  exact (List.prefix_of_prefix_length_le hprefix hprefix' (Nat.le_of_eq hlength)).eq_of_length
    hlength

theorem isInfix (h : BeforeFirst needle text before) : needle <:+: text :=
  (List.suffix_append before needle).isInfix.trans h.occurs.isInfix

/-- Whether an occurrence is the first one does not depend on what follows it. -/
theorem of_occurs (h : BeforeFirst needle text before) (h' : before ++ needle <+: text') :
    BeforeFirst needle text' before := by
  constructor
  · exact h'
  · intro p hp
    by_contra hlt
    have hle : (p ++ needle).length ≤ (before ++ needle).length := by
      simp only [List.length_append]
      omega
    exact hlt (h.first p ((List.prefix_of_prefix_length_le hp h' hle).trans h.occurs))

theorem nil (h : needle <+: text) : BeforeFirst needle text [] := by
  constructor
  · exact h
  · intro p _
    exact Nat.zero_le p.length

theorem cons (hc : ¬ needle <+: c :: text) (h : BeforeFirst needle text before) :
    BeforeFirst needle (c :: text) (c :: before) := by
  constructor
  · exact List.cons_prefix_cons.mpr ⟨rfl, h.occurs⟩
  · intro p hp
    cases p with
    | nil => exact absurd hp hc
    | cons d p => exact Nat.succ_le_succ (h.first p (List.cons_prefix_cons.mp hp).2)

end BeforeFirst

variable [DecidableEq α]

theorem beforeFirst_of_splitAtFirst? (h : splitAtFirst? needle text = some (before, after)) :
    BeforeFirst needle text before := by
  induction text generalizing before with
  | nil =>
      obtain ⟨rfl, rfl⟩ := List.append_eq_nil_iff.mp (append_of_splitAtFirst? h)
      exact .nil (List.isPrefixOf_iff_prefix.mp (isPrefixOf_of_splitAtFirst? h))
  | cons c text ih =>
      unfold splitAtFirst? at h
      split at h
      · rename_i hp
        cases h
        exact .nil (List.isPrefixOf_iff_prefix.mp hp)
      · rename_i hp
        obtain ⟨⟨before, _⟩, hrest, heq⟩ := Option.map_eq_some_iff.mp h
        cases heq
        exact .cons (mt List.isPrefixOf_iff_prefix.mpr hp) (ih hrest)

theorem splitAtFirst?_of_beforeFirst (h : BeforeFirst needle text before) :
    ∃ after, splitAtFirst? needle text = some (before, after) := by
  cases hsplit : splitAtFirst? needle text with
  | none => exact absurd h.isInfix (splitAtFirst?_eq_none.mp hsplit)
  | some parts => exact ⟨parts.2, by rw [h.unique (beforeFirst_of_splitAtFirst? hsplit)]⟩

theorem exists_beforeFirst (h : needle <:+: text) : ∃ before, BeforeFirst needle text before := by
  cases hsplit : splitAtFirst? needle text with
  | none => exact absurd h (splitAtFirst?_eq_none.mp hsplit)
  | some parts => exact ⟨parts.1, beforeFirst_of_splitAtFirst? hsplit⟩

/-- Split at a single character, the second part is all from its first occurrence on. -/
theorem splitAtFirst?_singleton (c : α) (text : List α) :
    ((splitAtFirst? [c] text).map Prod.snd).getD [] = text.dropWhile (· != c) := by
  induction text with
  | nil => rfl
  | cons d text ih =>
      rw [splitAtFirst?, List.dropWhile_cons]
      by_cases hd : d = c
      · simp [hd]
      · simp [hd, Ne.symm hd, ← ih, Function.comp_def]

end Text

/-! ## What a url is pointed at -/

/-- Where the node with an id is reached: a colon stands for the first `@` of the id, or follows
the id if there is none. -/
def endpoint (id : List Char) : List Char :=
  if '@' ∈ id then id.replace '@' ':' else id ++ [':']

theorem endpoint_cons_of_ne {c : Char} (h : c ≠ '@') (id : List Char) :
    endpoint (c :: id) = c :: endpoint id := by
  unfold endpoint
  by_cases hid : '@' ∈ id
  · have hbeq : ('@' == c) = false := beq_eq_false_iff_ne.mpr (Ne.symm h)
    rw [if_pos hid, if_pos (List.mem_cons_of_mem c hid), List.replace_cons, hbeq]
  · have hcons : '@' ∉ c :: id := by
      rw [List.mem_cons, not_or]
      exact ⟨Ne.symm h, hid⟩
    rw [if_neg hid, if_neg hcons, List.cons_append]

theorem endpoint_eq (id : List Char) :
    endpoint id = id.takeWhile (· != '@') ++ ':' :: (id.dropWhile (· != '@')).drop 1 := by
  induction id with
  | nil => rfl
  | cons c id ih =>
      by_cases hc : c = '@'
      · simp [hc, endpoint]
      · rw [endpoint_cons_of_ne hc, ih]
        simp [hc]

theorem mem_endpoint {c : Char} (hat : c ≠ '@') (hcolon : c ≠ ':') (id : List Char) :
    c ∈ endpoint id ↔ c ∈ id := by
  induction id with
  | nil => simp [endpoint, hcolon]
  | cons d id ih =>
      by_cases hd : d = '@'
      · simp [endpoint, hd, hat, hcolon]
      · rw [endpoint_cons_of_ne hd, List.mem_cons, List.mem_cons, ih]

/-- From the first `?` on. -/
def queryOf (url : List Char) : List Char := url.dropWhile (· != '?')

/-- What is written before the query. -/
def pointedFront (scheme : List Char) (id schema : String) : List Char :=
  scheme ++ ['/', '/'] ++ (endpoint id.toList ++ '/' :: schema.toList)

/-- The url for the node with an id, made of a url with the given scheme. -/
def pointedUrl (scheme : List Char) (id schema url : String) : String :=
  String.ofList (pointedFront scheme id schema ++ queryOf url.toList)

/-- A place for which nothing is written before the query that could be taken for the query. -/
structure Unqueried (scheme : List Char) (node : NodeIdentity) (schema : String) : Prop where
  scheme : '?' ∉ scheme
  id : '?' ∉ node.id.toList
  schema : '?' ∉ schema.toList

section Laws

variable {scheme : List Char} {node : NodeIdentity} {schema url target : String}

theorem queryOf_append (front url : List Char) :
    queryOf (front ++ queryOf url) = queryOf front ++ queryOf url := by
  unfold queryOf
  rw [List.dropWhile_append, List.dropWhile_idempotent]
  split
  · rename_i hnone
    rw [List.isEmpty_iff.mp hnone, List.nil_append]
  · rfl

theorem unqueried_iff :
    Unqueried scheme node schema ↔ queryOf (pointedFront scheme node.id schema) = [] := by
  have hmem : '?' ∉ pointedFront scheme node.id schema ↔
      '?' ∉ scheme ∧ '?' ∉ node.id.toList ∧ '?' ∉ schema.toList := by
    unfold pointedFront
    simp [mem_endpoint (by decide : '?' ≠ '@') (by decide : '?' ≠ ':')]
  have hquery : queryOf (pointedFront scheme node.id schema) = [] ↔
      '?' ∉ pointedFront scheme node.id schema := by
    unfold queryOf
    rw [List.dropWhile_eq_nil_iff]
    constructor
    · intro hall hmem
      exact bne_iff_ne.mp (hall '?' hmem) rfl
    · intro hnone c hc
      exact bne_iff_ne.mpr fun h => hnone (h ▸ hc)
  rw [hquery, hmem]
  constructor
  · intro h
    exact ⟨h.scheme, h.id, h.schema⟩
  · rintro ⟨hscheme, hid, hschema⟩
    exact ⟨hscheme, hid, hschema⟩

/-- A url pointed at a node: its front is new, its query is kept. -/
theorem retarget_eq (h : Text.BeforeFirst ['/', '/'] url.toList scheme) (node : NodeIdentity)
    (schema : String) : retarget node schema url =
      .ok (pointedUrl scheme node.id schema url) := by
  obtain ⟨after, hsplit⟩ := Text.splitAtFirst?_of_beforeFirst h
  unfold retarget
  rw [hsplit]
  dsimp only
  rw [Text.splitAtFirst?_singleton]
  apply congrArg Except.ok
  rw [← String.toList_inj]
  simp [pointedUrl, pointedFront, endpoint_eq, queryOf, NodeIdentity.address, NodeIdentity.sign]

/-- The scheme of a url is the scheme of the url that is made of it. -/
theorem beforeFirst_of_retarget (h : Text.BeforeFirst ['/', '/'] url.toList scheme)
    (htarget : retarget node schema url = .ok target) :
    Text.BeforeFirst ['/', '/'] target.toList scheme := by
  rw [retarget_eq h, Except.ok.injEq] at htarget
  unfold pointedUrl pointedFront at htarget
  rw [← htarget, String.toList_ofList, List.append_assoc]
  exact h.of_occurs (List.prefix_append (scheme ++ ['/', '/']) _)

theorem queryOf_retarget (h : Text.BeforeFirst ['/', '/'] url.toList scheme)
    (htarget : retarget node schema url = .ok target) :
    queryOf target.toList = queryOf (pointedFront scheme node.id schema) ++ queryOf url.toList := by
  rw [retarget_eq h, Except.ok.injEq] at htarget
  rw [← htarget, pointedUrl, String.toList_ofList, queryOf_append]

/-- Without a loss the new url can stand for the old one. -/
theorem retarget_of_unqueried (h : Text.BeforeFirst ['/', '/'] url.toList scheme)
    (htarget : retarget node schema url = .ok target) (hplace : Unqueried scheme node schema)
    (node' : NodeIdentity) (schema' : String) :
    retarget node' schema' target = retarget node' schema' url := by
  have hquery : queryOf target.toList = queryOf url.toList := by
    rw [queryOf_retarget h htarget, unqueried_iff.mp hplace, List.nil_append]
  rw [retarget_eq (beforeFirst_of_retarget h htarget), retarget_eq h, pointedUrl, pointedUrl,
    hquery]

theorem retarget_idempotent_iff (h : Text.BeforeFirst ['/', '/'] url.toList scheme)
    (htarget : retarget node schema url = .ok target) :
    retarget node schema target = .ok target ↔ Unqueried scheme node schema := by
  constructor
  · intro hagain
    rw [retarget_eq (beforeFirst_of_retarget h htarget), pointedUrl, queryOf_retarget h htarget,
      ← htarget, retarget_eq h, Except.ok.injEq, pointedUrl, String.ofList_inj,
      List.append_cancel_left_eq, List.append_left_eq_self] at hagain
    exact unqueried_iff.mpr hagain
  · intro hplace
    rw [retarget_of_unqueried h htarget hplace, htarget]

end Laws

/-! ## Chains -/

/-- Points a url at one place after the other. -/
def retargetAll (places : List (NodeIdentity × String)) (url : String) : Except Error String :=
  places.foldlM (fun url place => retarget place.1 place.2 url) url

section Chains

variable {scheme : List Char} {places : List (NodeIdentity × String)} {url : String}

theorem retargetAll_cons {node : NodeIdentity} {schema target : String}
    (h : retarget node schema url = .ok target) (places : List (NodeIdentity × String)) :
    retargetAll ((node, schema) :: places) url = retargetAll places target := by
  unfold retargetAll
  rw [List.foldlM_cons, h]
  rfl

/-- All places but the last one are passed through. -/
theorem retargetAll_concat (h : Text.BeforeFirst ['/', '/'] url.toList scheme)
    (hplaces : ∀ place ∈ places, Unqueried scheme place.1 place.2) (node : NodeIdentity)
    (schema : String) :
    retargetAll (places ++ [(node, schema)]) url = retarget node schema url := by
  induction places generalizing url with
  | nil => exact bind_pure (retarget node schema url)
  | cons place places ih =>
      have htarget := retarget_eq h place.1 place.2
      rw [List.cons_append, retargetAll_cons htarget, ih (beforeFirst_of_retarget h htarget)]
      · exact retarget_of_unqueried h htarget (hplaces place List.mem_cons_self) node schema
      · intro p hp
        exact hplaces p (List.mem_cons_of_mem place hp)

theorem retargetAll_keeps (h : Text.BeforeFirst ['/', '/'] url.toList scheme)
    (hplaces : ∀ place ∈ places, Unqueried scheme place.1 place.2) :
    ∃ target, retargetAll places url = .ok target ∧
      Text.BeforeFirst ['/', '/'] target.toList scheme ∧
      queryOf target.toList = queryOf url.toList := by
  induction places generalizing url with
  | nil => exact ⟨url, rfl, h, rfl⟩
  | cons place places ih =>
      have htarget := retarget_eq h place.1 place.2
      have hrest := ih (beforeFirst_of_retarget h htarget)
        fun p hp => hplaces p (List.mem_cons_of_mem place hp)
      rwa [← retargetAll_cons htarget, queryOf_retarget h htarget,
        unqueried_iff.mp (hplaces place List.mem_cons_self), List.nil_append] at hrest

end Chains

/-! ## The laws of retargeting -/

/-- A url that was pointed at a place. -/
structure Retargeted (url : String) (scheme : List Char) (node : NodeIdentity)
    (schema target : String) : Prop where
  made : retarget node schema url = .ok target
  sameScheme : Text.BeforeFirst ['/', '/'] target.toList scheme
  idempotent_iff : retarget node schema target = .ok target ↔ Unqueried scheme node schema
  /-- The last place wins. -/
  overridden : Unqueried scheme node schema →
    ∀ node' schema', retarget node' schema' target = retarget node' schema' url

/-- A url that can be pointed at places, and what is left of it after any number of them. -/
structure Retargetable (url : String) (scheme : List Char) : Prop where
  beforeFirst : Text.BeforeFirst ['/', '/'] url.toList scheme
  retargeted : ∀ node schema, ∃ target, Retargeted url scheme node schema target
  lastWins : ∀ places, (∀ place ∈ places, Unqueried scheme place.1 place.2) →
    ∀ node schema, retargetAll (places ++ [(node, schema)]) url = retarget node schema url
  /-- Scheme and query survive. -/
  survives : ∀ places, (∀ place ∈ places, Unqueried scheme place.1 place.2) →
    ∃ target, retargetAll places url = .ok target ∧
      Text.BeforeFirst ['/', '/'] target.toList scheme ∧
      queryOf target.toList = queryOf url.toList

/-- A url with a `//` can be pointed at every place, and any other url at none. -/
theorem retargetable (url : String) :
    (['/', '/'] <:+: url.toList → ∃ scheme, Retargetable url scheme) ∧
    (¬ ['/', '/'] <:+: url.toList → ∀ node schema,
      retarget node schema url = .error (.configuration ("Invalid url '" ++ url ++ "'"))) := by
  constructor
  · intro hpointed
    obtain ⟨scheme, h⟩ := Text.exists_beforeFirst hpointed
    refine ⟨scheme, h, ?_, fun places hplaces => retargetAll_concat h hplaces,
      fun places hplaces => retargetAll_keeps h hplaces⟩
    intro node schema
    have htarget := retarget_eq h node schema
    exact ⟨_, htarget, beforeFirst_of_retarget h htarget, retarget_idempotent_iff h htarget,
      retarget_of_unqueried h htarget⟩
  · intro hunpointed node schema
    exact retarget_of_unpointed node schema hunpointed

/-- The query is written once more if the id holds a `?`. -/
example : (retarget ⟨.proxy, "a?@1"⟩ "s" "j://h/d?x").toOption = some "j://a?:1/s?x" ∧
    (retarget ⟨.proxy, "a?@1"⟩ "s" "j://a?:1/s?x").toOption = some "j://a?:1/s?:1/s?x" := by
  decide +kernel

end SessionBroker
