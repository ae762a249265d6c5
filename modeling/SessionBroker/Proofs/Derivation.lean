import SessionBroker.Routing.Derivation

/-!
# Which properties are derived

Properties are derived for every node or for none. There must be a user; and as all nodes are
given the url of one sample, it is this url that decides: if one node cannot be given it, then the
first one cannot. What is derived stands under the ids of the nodes, each at its first place.
-/

namespace SessionBroker

variable {sample : PoolProperties} {node : ComputeNode} {nodes : List ComputeNode} {user : User}
  {users : List User} {schema url : String}

/-! ## Urls -/

theorem retarget_of_pointed (node : NodeIdentity) (schema : String)
    (h : ['/', '/'] <:+: url.toList) : ∃ target, retarget node schema url = .ok target := by
  unfold retarget
  cases hsplit : Text.splitAtFirst? ['/', '/'] url.toList with
  | none => exact absurd h (Text.splitAtFirst?_eq_none.mp hsplit)
  | some parts => exact ⟨_, rfl⟩

theorem retarget_of_unpointed (node : NodeIdentity) (schema : String)
    (h : ¬ ['/', '/'] <:+: url.toList) :
    retarget node schema url = .error (.configuration ("Invalid url '" ++ url ++ "'")) := by
  rw [retarget, Text.splitAtFirst?_eq_none.mpr h]

/-! ## One node -/

namespace PoolProperties

theorem forNode_of_urlless (node : NodeIdentity) (user : User) (schema : String)
    (h : sample.url? = none) : sample.forNode node user schema =
      .error (.configuration "Data source properties have no 'jdbcUrl'") := by
  rw [forNode, h]
  rfl

theorem forNode_of_unpointed (node : NodeIdentity) (user : User) (schema : String)
    (hurl : sample.url? = some url) (h : ¬ ['/', '/'] <:+: url.toList) :
    sample.forNode node user schema =
      .error (.configuration ("Invalid url '" ++ url ++ "'")) := by
  rw [forNode, hurl]
  dsimp only
  rw [retarget_of_unpointed node schema h]
  rfl

theorem forNode_of_pointed (node : NodeIdentity) (user : User) (schema : String)
    (hurl : sample.url? = some url) (h : ['/', '/'] <:+: url.toList) :
    ∃ props, sample.forNode node user schema = .ok props := by
  obtain ⟨target, htarget⟩ := retarget_of_pointed node schema h
  rw [forNode, hurl]
  dsimp only
  rw [htarget]
  exact ⟨_, rfl⟩

end PoolProperties

/-! ## All nodes -/

theorem deriveProperties_userless (nodes : List ComputeNode) (sample : PoolProperties)
    (schema : String) : deriveProperties nodes [] sample schema =
      .error (.metadata "Can not find any user to access compute node instances.") := rfl

/-- The failure of the first node is the failure of all. -/
theorem deriveProperties_of_failed {e : Error} (nodes : List ComputeNode) (users : List User)
    (h : sample.forNode node.identity user schema = .error e) :
    deriveProperties (node :: nodes) (user :: users) sample schema = .error e := by
  simp only [deriveProperties, List.foldlM_cons, h]
  rfl

theorem deriveProperties_of_forNode {derived : ComputeNode → PoolProperties} (users : List User)
    (h : ∀ n ∈ nodes, sample.forNode n.identity user schema = .ok (derived n)) :
    deriveProperties nodes (user :: users) sample schema =
      .ok (.ofList (nodes.map fun n => (n.id, derived n))) := by
  have hfold : ∀ m : OrderedMap String PoolProperties,
      nodes.foldlM (fun m n => (do
          let props ← sample.forNode n.identity user schema
          return m.insert n.id props : Except Error (OrderedMap String PoolProperties))) m =
        .ok ((nodes.map fun n => (n.id, derived n)).foldl (fun m e => m.insert e.1 e.2) m) := by
    induction nodes with
    | nil => exact fun m => rfl
    | cons n nodes ih =>
        intro m
        rw [List.foldlM_cons, h n List.mem_cons_self]
        exact ih (fun n' hn' => h n' (List.mem_cons_of_mem n hn')) (m.insert n.id (derived n))
  exact hfold .empty

/-- With a user and a url that can be pointed at a node, properties are derived for every node. -/
theorem deriveProperties_of_pointed (nodes : List ComputeNode) (user : User) (users : List User)
    (schema : String) (hurl : sample.url? = some url) (h : ['/', '/'] <:+: url.toList) :
    ∃ derived : ComputeNode → PoolProperties,
      (∀ n, sample.forNode n.identity user schema = .ok (derived n)) ∧
      deriveProperties nodes (user :: users) sample schema =
        .ok (.ofList (nodes.map fun n => (n.id, derived n))) := by
  obtain ⟨derived, hderived⟩ := Classical.axiomOfChoice fun n : ComputeNode =>
    sample.forNode_of_pointed n.identity user schema hurl h
  exact ⟨derived, hderived, deriveProperties_of_forNode users fun n _ => hderived n⟩

end SessionBroker
