import SessionBroker.Proofs.Retargeting

/-!
# The pools of nodes

What is derived for the pool of a node is told by the id of the node: the sample, with its url
pointed at the id and the credentials of the first user. Names that the sample has keep their
place, and the others follow in the order in which they are set. Nodes with one id share one entry,
which stands where the id comes first.
-/

namespace SessionBroker

namespace PoolProperties

variable {sample props props' : PoolProperties} {user : User} {url id schema : String}
  {scheme : List Char}

/-! ## Setting properties -/

theorem get?_set (p : PoolProperties) (key : String) (value : Json.Value) (k : String) :
    (p.set key value).get? k = if k = key then some value else p.get? k :=
  OrderedMap.get?_insert p.props key k value

theorem keys_set (p : PoolProperties) (key : String) (value : Json.Value) :
    (p.set key value).props.keys =
      if key ∈ p.props.keys then p.props.keys else p.props.keys ++ [key] :=
  OrderedMap.keys_insert p.props key value

/-- New properties follow the known ones in the order in which they are set. -/
theorem keys_setAll (entries : List (String × Json.Value)) (h : (entries.map Prod.fst).Nodup)
    (p : PoolProperties) : (entries.foldl (fun p e => p.set e.1 e.2) p).props.keys =
      p.props.keys ++ (entries.map Prod.fst).filter (· ∉ p.props.keys) := by
  induction entries generalizing p with
  | nil => exact (List.append_nil p.props.keys).symm
  | cons e entries ih =>
      rw [List.map_cons, List.nodup_cons] at h
      rw [List.foldl_cons, ih h.2, List.map_cons, keys_set]
      by_cases hkey : e.1 ∈ p.props.keys
      · rw [if_pos hkey, List.filter_cons_of_neg (by simpa using hkey)]
      · rw [if_neg hkey, List.filter_cons_of_pos (by simpa using hkey), List.append_assoc,
          List.singleton_append]
        -- the new property is not set again
        have hrest : ∀ k ∈ entries.map Prod.fst,
            decide (k ∉ p.props.keys ++ [e.1]) = decide (k ∉ p.props.keys) := by
          intro k hk
          have hne : k ≠ e.1 := fun heq => h.1 (heq ▸ hk)
          simp [hne]
        rw [List.filter_congr hrest]

/-! ## The sample's url -/

/-- How a value reads as a text: a string is the text itself, any other value is written. -/
inductive ReadsAs : Json.Value → String → Prop where
  | string (text : String) : ReadsAs (.string text) text
  | written {value : Json.Value} (h : ∀ text, value ≠ .string text) : ReadsAs value value.text

/-- The sample has a url. -/
def HasUrl (sample : PoolProperties) (url : String) : Prop :=
  ∃ value, sample.get? urlKey = some value ∧ ReadsAs value url

/-- The sample has a url in which something can be pointed at a node. -/
def Pointable (sample : PoolProperties) : Prop :=
  ∃ url, HasUrl sample url ∧ ['/', '/'] <:+: url.toList

theorem url?_eq_some : sample.url? = some url ↔ HasUrl sample url := by
  unfold url? text? HasUrl
  rw [Option.map_eq_some_iff]
  refine exists_congr fun value => and_congr_right fun _ => ?_
  constructor
  · rintro rfl
    cases value <;> first
      | exact .string _
      | exact .written fun _ => Json.Value.noConfusion
  · intro h
    cases h with
    | string => rfl
    | written h =>
        split
        · exact absurd rfl (h _)
        · rfl

/-! ## One entry -/

/-- The properties of the pool for the node with an id. -/
structure PointedAt (sample : PoolProperties) (user : User) (scheme : List Char)
    (url id schema : String) (props : PoolProperties) : Prop where
  poolType : props.poolType = sample.poolType
  keys : props.props.keys =
    sample.props.keys ++ [urlKey, usernameKey, passwordKey].filter (· ∉ sample.props.keys)
  url : props.get? urlKey = some (.string (pointedUrl scheme id schema url))
  username : props.get? usernameKey = some (.string user.username)
  password : props.get? passwordKey = some (.string user.password)
  others : ∀ key, key ∉ [urlKey, usernameKey, passwordKey] → props.get? key = sample.get? key

/-- Nothing more is to be said of an entry. -/
theorem PointedAt.unique (h : PointedAt sample user scheme url id schema props)
    (h' : PointedAt sample user scheme url id schema props') : props = props' := by
  have hprops : props.props = props'.props := by
    apply OrderedMap.eq_of_get? (h.keys.trans h'.keys.symm)
    intro key
    by_cases hkey : key ∈ [urlKey, usernameKey, passwordKey]
    · simp only [List.mem_cons, List.not_mem_nil, or_false] at hkey
      rcases hkey with rfl | rfl | rfl
      · exact h.url.trans h'.url.symm
      · exact h.username.trans h'.username.symm
      · exact h.password.trans h'.password.symm
    · exact (h.others key hkey).trans (h'.others key hkey).symm
  calc props = ⟨props.poolType, props.props⟩ := rfl
    _ = ⟨props'.poolType, props'.props⟩ := by rw [h.poolType, h'.poolType, hprops]

/-- The sample with a url and a user's credentials. -/
def withAccess (sample : PoolProperties) (user : User) (url : String) : PoolProperties :=
  ((sample.set urlKey (.string url)).set usernameKey (.string user.username)).set passwordKey
    (.string user.password)

theorem pointedAt_withAccess (sample : PoolProperties) (user : User) (scheme : List Char)
    (url id schema : String) : PointedAt sample user scheme url id schema
      (sample.withAccess user (pointedUrl scheme id schema url)) := by
  have hkeys : urlKey ≠ usernameKey ∧ urlKey ≠ passwordKey ∧ usernameKey ≠ passwordKey := by
    decide
  obtain ⟨hurl, hurl', husername⟩ := hkeys
  unfold withAccess
  constructor
  case poolType => rfl
  case keys =>
    have hnodup : [urlKey, usernameKey, passwordKey].Nodup := by decide
    exact keys_setAll [(urlKey, _), (usernameKey, _), (passwordKey, _)] hnodup sample
  case url =>
    rw [get?_set, get?_set, get?_set, if_neg hurl', if_neg hurl, if_pos rfl]
  case username =>
    rw [get?_set, get?_set, if_neg husername, if_pos rfl]
  case password =>
    rw [get?_set, if_pos rfl]
  case others =>
    intro key hkey
    simp only [List.mem_cons, List.not_mem_nil, or_false, not_or] at hkey
    obtain ⟨h₁, h₂, h₃⟩ := hkey
    rw [get?_set, get?_set, get?_set, if_neg h₃, if_neg h₂, if_neg h₁]

theorem forNode_eq (hurl : sample.url? = some url)
    (h : Text.BeforeFirst ['/', '/'] url.toList scheme) (node : NodeIdentity) (user : User)
    (schema : String) : sample.forNode node user schema =
      .ok (sample.withAccess user (pointedUrl scheme node.id schema url)) := by
  rw [forNode, hurl]
  dsimp only
  rw [retarget_eq h]
  rfl

end PoolProperties

/-! ## All entries -/

section Entries

variable {nodes : List ComputeNode} {sample : PoolProperties} {user : User} {others : List User}
  {schema url : String} {entry : String → PoolProperties}

/-- Nodes that have their pools told by their ids. -/
theorem deriveProperties_of_entry (others : List User)
    (h : ∀ n ∈ nodes, sample.forNode n.identity user schema = .ok (entry n.id)) :
    ∃ derived, deriveProperties nodes (user :: others) sample schema = .ok derived ∧
      derived.keys = (nodes.map ComputeNode.id).eraseDups ∧
      ∀ id ∈ derived.keys, derived.get? id = some (entry id) := by
  have hkeys : (OrderedMap.ofList (nodes.map fun n => (n.id, entry n.id))).keys =
      (nodes.map ComputeNode.id).eraseDups := by
    rw [OrderedMap.keys_ofList, List.map_map]
    rfl
  refine ⟨_, deriveProperties_of_forNode others h, hkeys, ?_⟩
  intro id hid
  rw [hkeys, List.mem_eraseDups] at hid
  obtain ⟨n, hn, rfl⟩ := List.mem_map.mp hid
  refine OrderedMap.get?_ofList_of_forall (List.mem_map_of_mem hn) ?_
  intro e he hid
  obtain ⟨m, -, rfl⟩ := List.mem_map.mp he
  exact congrArg entry hid

theorem deriveProperties_of_unpointable (node : ComputeNode) (nodes : List ComputeNode)
    (user : User) (others : List User) (schema : String) (h : ¬ sample.Pointable) :
    ∃ text, deriveProperties (node :: nodes) (user :: others) sample schema =
      .error (.configuration text) := by
  cases hurl : sample.url? with
  | none =>
      exact ⟨_, deriveProperties_of_failed nodes others
        (sample.forNode_of_urlless node.identity user schema hurl)⟩
  | some url =>
      have hunpointed : ¬ ['/', '/'] <:+: url.toList :=
        fun hpointed => h ⟨url, PoolProperties.url?_eq_some.mp hurl, hpointed⟩
      exact ⟨_, deriveProperties_of_failed nodes others
        (sample.forNode_of_unpointed node.identity user schema hurl hunpointed)⟩

/-- Properties are derived entry by entry, and an entry is told by its id. -/
structure DerivesById (user : User) (others : List User) (sample : PoolProperties)
    (schema : String) (entry : String → PoolProperties) : Prop where
  pointedAt : ∀ url scheme, sample.HasUrl url →
    Text.BeforeFirst ['/', '/'] url.toList scheme →
    ∀ id, sample.PointedAt user scheme url id schema (entry id)
  derived : ∀ nodes, nodes = [] ∨ sample.Pointable →
    ∃ derived, deriveProperties nodes (user :: others) sample schema = .ok derived ∧
      derived.keys = (nodes.map ComputeNode.id).eraseDups ∧
      ∀ id ∈ derived.keys, derived.get? id = some (entry id)
  refused_iff : ∀ nodes, (∃ text, deriveProperties nodes (user :: others) sample schema =
    .error (.configuration text)) ↔ nodes ≠ [] ∧ ¬ sample.Pointable

theorem exists_entry (user : User) (sample : PoolProperties) (schema : String) :
    ∃ entry : String → PoolProperties,
      (∀ url scheme, sample.HasUrl url → Text.BeforeFirst ['/', '/'] url.toList scheme →
        ∀ id, sample.PointedAt user scheme url id schema (entry id)) ∧
      (sample.Pointable →
        ∀ node : NodeIdentity, sample.forNode node user schema = .ok (entry node.id)) := by
  by_cases hpointable : sample.Pointable
  · obtain ⟨url, hurl, hpointed⟩ := hpointable
    obtain ⟨scheme, h⟩ := Text.exists_beforeFirst hpointed
    refine ⟨fun id => sample.withAccess user (pointedUrl scheme id schema url), ?_, ?_⟩
    · intro url' scheme' hurl' h' id
      rw [← PoolProperties.url?_eq_some] at hurl hurl'
      cases hurl.symm.trans hurl'
      rw [h.unique h']
      exact sample.pointedAt_withAccess user scheme' url id schema
    · intro _ node
      exact sample.forNode_eq (PoolProperties.url?_eq_some.mpr hurl) h node user schema
  · refine ⟨fun _ => sample, ?_, fun h => absurd h hpointable⟩
    intro url scheme hurl h
    exact absurd ⟨url, hurl, h.isInfix⟩ hpointable

/-- Properties are derived for every list of nodes or for no node at all. -/
theorem derivesById (sample : PoolProperties) (schema : String) :
    (∀ nodes, deriveProperties nodes [] sample schema =
      .error (.metadata "Can not find any user to access compute node instances.")) ∧
    ∀ user others, ∃ entry, DerivesById user others sample schema entry := by
  constructor
  · intro nodes
    exact deriveProperties_userless nodes sample schema
  · intro user others
    obtain ⟨entry, hpointedAt, hentry⟩ := exists_entry user sample schema
    have hderived : ∀ nodes, nodes = [] ∨ sample.Pointable →
        ∃ derived, deriveProperties nodes (user :: others) sample schema = .ok derived ∧
          derived.keys = (nodes.map ComputeNode.id).eraseDups ∧
          ∀ id ∈ derived.keys, derived.get? id = some (entry id) := by
      rintro nodes (rfl | hpointable)
      · exact deriveProperties_of_entry others fun n hn => absurd hn List.not_mem_nil
      · exact deriveProperties_of_entry others fun n _ => hentry hpointable n.identity
    refine ⟨entry, hpointedAt, hderived, ?_⟩
    intro nodes
    constructor
    · rintro ⟨text, htext⟩
      apply not_or.mp
      intro hok
      obtain ⟨derived, hderived, -⟩ := hderived nodes hok
      cases htext.symm.trans hderived
    · rintro ⟨hnodes, hpointable⟩
      obtain ⟨node, nodes, rfl⟩ := List.exists_cons_of_ne_nil hnodes
      exact deriveProperties_of_unpointable node nodes user others schema hpointable

/-- An id without `@`, one with two of them, and a repeated one. -/
example : (deriveProperties
      [⟨⟨.proxy, "a"⟩, []⟩, ⟨⟨.jdbc, "b@1@2"⟩, ["x"]⟩, ⟨⟨.jdbc, "a"⟩, ["y"]⟩] [⟨⟨"u", "%"⟩, "p"⟩]
      ((PoolProperties.new "pool").set "jdbcUrl" (.string "j://h/d?x")) "s").toOption.map
        (fun derived => derived.entries.map fun e => (e.1, e.2.url?)) =
    some [("a", some "j://a:/s?x"), ("b@1@2", some "j://b:1@2/s?x")] := by
  decide +kernel

end Entries

end SessionBroker
