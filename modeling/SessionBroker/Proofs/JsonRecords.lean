import SessionBroker.Deployment.Config
import SessionBroker.Proofs.JsonText

/-!
# Records are read back

Each record has a JSON value, `value`, whose text is the record's own (`render_value`) and
whose document is read as the record (`ofJson?_written`). With that the text of a record needs
no look of its own: it is the text of a value.

A node and a user share their object with the identity or the grantee inside them, so that
their fields stand in an order which is not that of the keys; only property values must have
their keys in order, as `Value.ofFields` gives them.
-/

namespace SessionBroker

namespace Json

open Written (nesting nesting.nestingItems nesting.nestingFields)

/-! ## Fields and items -/

theorem renderItems_eq_map (vs : List Value) :
    Value.render.renderItems vs = vs.map Value.render := by
  induction vs with
  | nil => rfl
  | cons v vs ih => rw [Value.render.renderItems, ih, List.map_cons]

theorem renderFields_eq_map (fs : List (String × Value)) :
    Value.render.renderFields fs = fs.map fun f => (f.1, f.2.render) := by
  induction fs with
  | nil => rfl
  | cons f fs ih => rw [Value.render.renderFields, ih, List.map_cons]

theorem writtenItems_eq_map (vs : List Value) :
    Value.written.writtenItems vs = vs.map Value.written := by
  induction vs with
  | nil => rfl
  | cons v vs ih => rw [Value.written.writtenItems, ih, List.map_cons]

theorem render_array (vs : List Value) :
    (Value.array vs).render = bracketed (vs.map Value.render) := by
  rw [Value.render, renderItems_eq_map]

theorem render_object (fs : List (String × Value)) :
    (Value.object fs).render = braced (fs.map fun f => (f.1, f.2.render)) := by
  rw [Value.render, renderFields_eq_map]

theorem render_array_map {α : Type} {value : α → Value} {render : α → List Char}
    (h : ∀ a, (value a).render = render a) (as : List α) :
    (Value.array (as.map value)).render = bracketed (as.map render) := by
  rw [render_array, List.map_map]
  exact congrArg bracketed (List.map_congr_left fun a _ => h a)

theorem render_object_map {α : Type} {value : α → Value} {render : α → List Char}
    (h : ∀ a, (value a).render = render a) (fs : List (String × α)) :
    (Value.object (fs.map fun f => (f.1, value f.2))).render =
      braced (fs.map fun f => (f.1, render f.2)) := by
  rw [render_object, List.map_map]
  exact congrArg braced (List.map_congr_left fun f _ => congrArg (f.1, ·) (h f.2))

theorem named?_writtenFields (fs : List (String × Value)) :
    Written.named? (Value.written.writtenFields fs) = some (fs.map fun f => (f.1, f.2.written)) := by
  induction fs with
  | nil => rfl
  | cons f fs ih => simp [Value.written.writtenFields, Written.named?, ih]

theorem record?_written (names : List String) (fs : List (String × Value)) :
    (Value.object fs).written.record? names =
      names.mapM (Written.single? (fs.map fun f => (f.1, f.2.written))) := by
  rw [Value.written, Written.record?, named?_writtenFields, Option.bind_some]

theorem sharedRecord?_written {depth : Nat} {names : List String} {fs : List (String × Value)}
    (h : ∀ f ∈ fs, f.1 ∉ names → (f.2.written.value? depth).isSome = true)
    (others : List String) :
    (Value.object fs).written.sharedRecord? depth names others =
      (names ++ others).mapM (Written.single? (fs.map fun f => (f.1, f.2.written))) := by
  have happart : ((fs.map fun f => (f.1, f.2.written)).filter fun f => !names.contains f.1).all
      (fun f => (f.2.value? depth).isSome) = true := by
    rw [List.all_eq_true]
    intro g hg
    obtain ⟨hmem, hname⟩ := List.mem_filter.mp hg
    obtain ⟨f, hf, rfl⟩ := List.mem_map.mp hmem
    exact h f hf (by simpa using hname)
  rw [Value.written, Written.sharedRecord?, named?_writtenFields]
  simp only [Option.bind_eq_bind, Option.bind_some, happart, if_true]

theorem exactItems_iff (vs : List Value) :
    Value.Exact.ExactItems vs ↔ ∀ v ∈ vs, v.Exact := by
  induction vs with
  | nil => simp [Value.Exact.ExactItems]
  | cons v vs ih => simp [Value.Exact.ExactItems, ih]

theorem exactFields_iff (fs : List (String × Value)) :
    Value.Exact.ExactFields fs ↔ ∀ f ∈ fs, f.2.Exact := by
  induction fs with
  | nil => simp [Value.Exact.ExactFields]
  | cons f fs ih => simp [Value.Exact.ExactFields, ih]

theorem nestingFields_le_iff (fs : List (String × Value)) (depth : Nat) :
    nesting.nestingFields (Value.written.writtenFields fs) ≤ depth ↔
      ∀ f ∈ fs, nesting f.2.written ≤ depth := by
  induction fs with
  | nil => simp [Value.written.writtenFields, nesting.nestingFields]
  | cons f fs ih =>
    rw [Value.written.writtenFields, nesting.nestingFields, Nat.max_le, ih, List.forall_mem_cons]

/-- A list whose members are each read back is read back. -/
theorem mapM_map_of_forall {α β : Type} {write : α → β} {read : β → Option α} {as : List α}
    (h : ∀ a ∈ as, read (write a) = some a) : (as.map write).mapM read = some as := by
  induction as with
  | nil => rfl
  | cons a as ih =>
    simp [List.mapM_cons, h a List.mem_cons_self,
      ih fun b hb => h b (List.mem_cons_of_mem a hb)]

/-- The JSON array of a list of strings. -/
def words (ss : List String) : Value := .array (ss.map .string)

theorem render_words (ss : List String) : (words ss).render = renderStrings ss :=
  render_array_map (fun _ => rfl) ss

theorem strings?_words (ss : List String) : (words ss).written.strings? = some ss := by
  rw [words, Value.written, Written.strings?, writtenItems_eq_map, List.map_map]
  exact mapM_map_of_forall fun s _ => by simp [Value.written, Written.string?]

theorem exact_words (ss : List String) : (words ss).Exact := by
  rw [words, Value.Exact, exactItems_iff]
  intro v hv
  obtain ⟨s, -, rfl⟩ := List.mem_map.mp hv
  trivial

theorem string?_written (s : String) : (Value.string s).written.string? = some s :=
  stringOf?_rawText s

end Json

open Json (Value)

/-! ## Nodes -/

namespace NodeIdentity

def fields (n : NodeIdentity) : List (String × Value) :=
  [("type", .string n.kind.text), ("id", .string n.id)]

def value (n : NodeIdentity) : Value := .object n.fields

theorem render_value (n : NodeIdentity) : n.value.render = n.render := rfl

theorem ofFields?_written {kind? : Json.Written → Option NodeKind} (n : NodeIdentity)
    (h : kind? (Value.string n.kind.text).written = some n.kind) :
    ofFields? kind? [some (Value.string n.kind.text).written, some (Value.string n.id).written] =
      some n := by
  simp [ofFields?, h, Json.string?_written]

theorem ofText?_text (k : NodeKind) : NodeKind.ofText? k.text = some k := by
  cases k <;> decide

theorem word?_kind (isUnit : Json.Written → Bool) (k : NodeKind) :
    Json.Written.word? NodeKind.ofText? isUnit (Value.string k.text).written = some k := by
  simp [Value.written, Json.Written.word?, ofText?_text]

theorem ofJson?_written (n : NodeIdentity) : ofJson? n.value.written = some n := by
  have hrecord : n.value.written.record? fieldNames =
      some [some (Value.string n.kind.text).written, some (Value.string n.id).written] := by
    rw [value, Json.record?_written]
    rfl
  rw [ofJson?, hrecord, Option.bind_some]
  exact ofFields?_written n (word?_kind _ n.kind)

end NodeIdentity

namespace ComputeNode

def value (n : ComputeNode) : Value :=
  .object (n.identity.fields ++ [("labels", Json.words n.labels)])

theorem render_value (n : ComputeNode) : n.value.render = n.render := by
  rw [value, Json.render_object, List.map_append, List.map_singleton, Json.render_words]
  rfl

theorem exact_value (n : ComputeNode) : n.value.Exact :=
  ⟨trivial, trivial, Json.exact_words n.labels, trivial⟩

theorem ofJson?_written (n : ComputeNode) (depth : Nat) :
    ofJson? depth n.value.written = some n := by
  have hshared : n.value.written.sharedRecord? (depth - 1) ["labels"] NodeIdentity.fieldNames =
      some [some (Json.words n.labels).written, some (Value.string n.identity.kind.text).written,
        some (Value.string n.identity.id).written] := by
    rw [value, Json.sharedRecord?_written]
    · rfl
    · simp [NodeIdentity.fields, Value.written, Json.Written.value?]
  have hidentity := n.identity.ofFields?_written
    (NodeIdentity.word?_kind Json.Written.isNullOrEmpty n.identity.kind)
  rw [ofJson?, hshared]
  simp only [Option.bind_eq_bind, Option.bind_some, Json.Written.orDefault, Json.strings?_words,
    hidentity]

end ComputeNode

/-! ## Users -/

namespace Grantee

def fields (g : Grantee) : List (String × Value) :=
  [("username", .string g.username), ("hostname", .string g.hostname)]

def value (g : Grantee) : Value := .object g.fields

theorem render_value (g : Grantee) : g.value.render = g.render := rfl

theorem ofFields?_written (g : Grantee) :
    ofFields? [some (Value.string g.username).written, some (Value.string g.hostname).written] =
      some g := by
  simp [ofFields?, Json.Written.orDefault, Json.string?_written]

theorem ofJson?_written (g : Grantee) : ofJson? g.value.written = some g := by
  have hrecord : g.value.written.record? fieldNames =
      some [some (Value.string g.username).written, some (Value.string g.hostname).written] := by
    rw [value, Json.record?_written]
    rfl
  rw [ofJson?, hrecord, Option.bind_some, ofFields?_written]

end Grantee

namespace User

def value (u : User) : Value := .object (u.grantee.fields ++ [("password", .string u.password)])

theorem render_value (u : User) : u.value.render = u.render := rfl

theorem exact_value (u : User) : u.value.Exact := ⟨trivial, trivial, trivial, trivial⟩

theorem ofJson?_written (u : User) (depth : Nat) : ofJson? depth u.value.written = some u := by
  have hshared : u.value.written.sharedRecord? (depth - 1) ["password"] Grantee.fieldNames =
      some [some (Value.string u.password).written, some (Value.string u.grantee.username).written,
        some (Value.string u.grantee.hostname).written] := by
    rw [value, Json.sharedRecord?_written]
    · rfl
    · simp [Grantee.fields, Value.written, Json.Written.value?]
  rw [ofJson?, hshared]
  simp only [Option.bind_eq_bind, Option.bind_some, Json.Written.orDefault, Json.string?_written,
    Grantee.ofFields?_written]

end User

/-! ## Traffic rules -/

namespace TrafficRule

def value (r : TrafficRule) : Value := .object [("labels", Json.words r.labels)]

theorem render_value (r : TrafficRule) : r.value.render = r.render := by
  rw [value, Json.render_object, List.map_singleton, Json.render_words]
  rfl

theorem exact_value (r : TrafficRule) : r.value.Exact := ⟨Json.exact_words r.labels, trivial⟩

theorem ofJson?_written (r : TrafficRule) : ofJson? r.value.written = some r := by
  have hrecord : r.value.written.record? ["labels"] = some [some (Json.words r.labels).written] := by
    rw [value, Json.record?_written]
    rfl
  rw [ofJson?, hrecord]
  simp only [Option.bind_eq_bind, Option.bind_some, Json.Written.orDefault, Json.strings?_words,
    Option.map_some]

end TrafficRule

/-! ## Properties of pools -/

namespace PoolProperties

/-- Property values that JSON text gives back exactly. -/
def Exact (p : PoolProperties) : Prop := ∀ e ∈ p.props.entries, e.2.Exact ∧ e.2.InOrder

def value (p : PoolProperties) : Value :=
  .object [("pool_type", .string p.poolType), ("props", .object p.props.entries)]

theorem render_value (p : PoolProperties) : p.value.render = p.render := by
  rw [value, Json.render_object, List.map_cons, List.map_singleton, Json.render_object]
  rfl

theorem exact_value {p : PoolProperties} (h : p.Exact) : p.value.Exact :=
  ⟨trivial, (Json.exactFields_iff p.props.entries).mpr fun e he => (h e he).1, trivial⟩

theorem ofJson?_written {p : PoolProperties} {depth : Nat} (h : p.Exact)
    (hdepth : p.value.written.nesting ≤ depth) : ofJson? depth p.value.written = some p := by
  have hrecord : p.value.written.record? ["pool_type", "props"] =
      some [some (Value.string p.poolType).written, some (Value.object p.props.entries).written] := by
    rw [value, Json.record?_written]
    rfl
  have hnesting : Json.Written.nesting.nestingFields
      (Value.written.writtenFields p.props.entries) ≤ depth - 2 := by
    simp only [value, Value.written, Value.written.writtenFields, Json.Written.nesting,
      Json.Written.nesting.nestingFields] at hdepth
    omega
  have hprops : propsOfJson? (depth - 2) (Value.object p.props.entries).written = some p.props := by
    rw [Value.written, propsOfJson?, Json.fieldValues?_written p.props.entries (depth - 2)
      ((Json.exactFields_iff _).mpr fun e he => (h e he).1)
      ((Json.inOrderFields_iff _).mpr fun e he => (h e he).2) hnesting, Option.map_some,
      OrderedMap.ofList_entries]
  rw [ofJson?, hrecord]
  simp only [Option.bind_eq_bind, Option.bind_some, Json.Written.orDefault, Json.string?_written,
    hprops]

end PoolProperties

/-! ## Configurations -/

namespace DeploymentConfig

def Exact (c : DeploymentConfig) : Prop := ∀ e ∈ c.dataSources.entries, e.2.Exact

def trafficValue : Option TrafficRule → Value
  | none => .null
  | some rule => rule.value

def value (c : DeploymentConfig) : Value :=
  .object
    [("schema", .string c.schema),
      ("data_sources", .object (c.dataSources.entries.map fun e => (e.1, e.2.value))),
      ("traffic", trafficValue c.traffic),
      ("instances", .array (c.nodes.map ComputeNode.value)),
      ("users", .array (c.users.map User.value))]

theorem render_value (c : DeploymentConfig) : c.value.render = c.render := by
  have htraffic : (trafficValue c.traffic).render =
      match c.traffic with
        | none => Json.Value.null.render
        | some rule => rule.render := by
    cases c.traffic with
    | none => rfl
    | some rule => exact rule.render_value
  rw [value, Json.render_object, render]
  simp only [List.map_cons, List.map_nil, htraffic,
    Json.render_object_map PoolProperties.render_value,
    Json.render_array_map ComputeNode.render_value, Json.render_array_map User.render_value]
  rfl

theorem exact_value {c : DeploymentConfig} (h : c.Exact) : c.value.Exact := by
  have hsources : ∀ f ∈ c.dataSources.entries.map fun e => (e.1, e.2.value), f.2.Exact := by
    intro f hf
    obtain ⟨e, he, rfl⟩ := List.mem_map.mp hf
    exact PoolProperties.exact_value (h e he)
  have htraffic : (trafficValue c.traffic).Exact := by
    cases c.traffic with
    | none => trivial
    | some rule => exact rule.exact_value
  have hnodes : ∀ v ∈ c.nodes.map ComputeNode.value, v.Exact := by
    intro v hv
    obtain ⟨n, -, rfl⟩ := List.mem_map.mp hv
    exact n.exact_value
  have husers : ∀ v ∈ c.users.map User.value, v.Exact := by
    intro v hv
    obtain ⟨u, -, rfl⟩ := List.mem_map.mp hv
    exact u.exact_value
  exact ⟨trivial, (Json.exactFields_iff _).mpr hsources, htraffic,
    (Json.exactItems_iff _).mpr hnodes, (Json.exactItems_iff _).mpr husers, trivial⟩

theorem dataSourcesOfJson?_written {c : DeploymentConfig} {depth : Nat} (h : c.Exact)
    (hdepth : ∀ e ∈ c.dataSources.entries, e.2.value.written.nesting ≤ depth) :
    dataSourcesOfJson? depth
        (Value.object (c.dataSources.entries.map fun e => (e.1, e.2.value))).written =
      some c.dataSources := by
  have hentries : (c.dataSources.entries.map fun e => (e.1, e.2.value.written)).mapM
      (fun f => (PoolProperties.ofJson? depth f.2).map fun p => (f.1, p)) =
      some c.dataSources.entries :=
    Json.mapM_map_of_forall fun e he => by
      rw [PoolProperties.ofJson?_written (h e he) (hdepth e he), Option.map_some]
  rw [Value.written, dataSourcesOfJson?, Json.named?_writtenFields, List.map_map]
  simp only [Option.bind_eq_bind, Option.bind_some, Function.comp_def, hentries,
    OrderedMap.ofList_entries]

theorem trafficOfJson?_written (t : Option TrafficRule) :
    trafficOfJson? (trafficValue t).written = some t := by
  cases t with
  | none => rfl
  | some rule =>
    show (TrafficRule.ofJson? rule.value.written).map some = _
    rw [rule.ofJson?_written, Option.map_some]

theorem items?_written {α : Type} {read : Json.Written → Option α} {value : α → Value}
    {as : List α} (h : ∀ a ∈ as, read (value a).written = some a) :
    items? read (Value.array (as.map value)).written = some as := by
  rw [Value.written, items?, Json.writtenItems_eq_map, List.map_map]
  exact Json.mapM_map_of_forall h

theorem ofJson?_written {c : DeploymentConfig} {depth : Nat} (h : c.Exact)
    (hdepth : c.value.written.nesting ≤ depth) : ofJson? depth c.value.written = some c := by
  have hsources : ∀ e ∈ c.dataSources.entries, e.2.value.written.nesting ≤ depth - 2 := by
    simp only [value, Value.written, Value.written.writtenFields, Json.Written.nesting,
      Json.Written.nesting.nestingFields] at hdepth
    have hfields := (Json.nestingFields_le_iff
      (c.dataSources.entries.map fun e => (e.1, e.2.value)) (depth - 2)).mp (by omega)
    exact fun e he => hfields (e.1, e.2.value) (List.mem_map_of_mem he)
  have hnodes : items? (ComputeNode.ofJson? (depth - 2))
      (Value.array (c.nodes.map ComputeNode.value)).written = some c.nodes :=
    items?_written fun n _ => n.ofJson?_written (depth - 2)
  have husers : items? (User.ofJson? (depth - 2))
      (Value.array (c.users.map User.value)).written = some c.users :=
    items?_written fun u _ => u.ofJson?_written (depth - 2)
  have hrecord : c.value.written.record? fieldNames =
      some [some (Value.string c.schema).written,
        some (Value.object (c.dataSources.entries.map fun e => (e.1, e.2.value))).written,
        some (trafficValue c.traffic).written,
        some (Value.array (c.nodes.map ComputeNode.value)).written,
        some (Value.array (c.users.map User.value)).written] := by
    rw [value, Json.record?_written]
    rfl
  rw [ofJson?, hrecord]
  simp only [Option.bind_eq_bind, Option.bind_some, Json.Written.orDefault, Json.string?_written,
    dataSourcesOfJson?_written h hsources, trafficOfJson?_written, hnodes, husers]

end DeploymentConfig

/-! ## From text to text -/

namespace Json

/-- Reads one document as what `read` makes of it. -/
def decode {α : Type} (read : Written → Option α) (text : List Char) : Option α :=
  (Written.ofChars? text).bind read

/-- A text whose arrays and objects are nested at most `depth` deep. -/
def NestedWithin (depth : Nat) (text : List Char) : Prop :=
  ∀ w, Written.ofChars? text = some w → w.nesting ≤ depth

theorem decode_render {α : Type} {read : Written → Option α} {v : Value} {a : α} (hv : v.Exact)
    (hread : read v.written = some a) : decode read v.render = some a := by
  rw [decode, ofChars?_render hv, Option.bind_some, hread]

theorem nesting_le_of_nestedWithin {v : Value} {depth : Nat} (hv : v.Exact)
    (h : NestedWithin depth v.render) : v.written.nesting ≤ depth :=
  h v.written (ofChars?_render hv)

end Json

/-- Decoding inverts encoding: each kind of record is read back from its text as it was, with the
order of its entries, of its lists and of its properties. -/
theorem decode_inverts_encode :
    (∀ n : NodeIdentity, Json.decode NodeIdentity.ofJson? n.render = some n) ∧
    (∀ n : ComputeNode, Json.decode (ComputeNode.ofJson? Json.maxNesting) n.render = some n) ∧
    (∀ g : Grantee, Json.decode Grantee.ofJson? g.render = some g) ∧
    (∀ u : User, Json.decode (User.ofJson? Json.maxNesting) u.render = some u) ∧
    (∀ r : TrafficRule, Json.decode TrafficRule.ofJson? r.render = some r) ∧
    (∀ p : PoolProperties, p.Exact → Json.NestedWithin Json.maxNesting p.render →
      Json.decode (PoolProperties.ofJson? Json.maxNesting) p.render = some p) ∧
    (∀ c : DeploymentConfig, c.Exact → Json.NestedWithin Json.maxNesting c.render →
      Json.decode (DeploymentConfig.ofJson? Json.maxNesting) c.render = some c) := by
  refine ⟨fun n => ?_, fun n => ?_, fun g => ?_, fun u => ?_, fun r => ?_, fun p hp hdepth => ?_,
    fun c hc hdepth => ?_⟩
  · rw [← n.render_value]
    exact Json.decode_render ⟨trivial, trivial, trivial⟩ n.ofJson?_written
  · rw [← n.render_value]
    exact Json.decode_render n.exact_value (n.ofJson?_written _)
  · rw [← g.render_value]
    exact Json.decode_render ⟨trivial, trivial, trivial⟩ g.ofJson?_written
  · rw [← u.render_value]
    exact Json.decode_render u.exact_value (u.ofJson?_written _)
  · rw [← r.render_value]
    exact Json.decode_render r.exact_value r.ofJson?_written
  · have hexact := PoolProperties.exact_value hp
    rw [← p.render_value] at hdepth ⊢
    exact Json.decode_render hexact
      (PoolProperties.ofJson?_written hp (Json.nesting_le_of_nestedWithin hexact hdepth))
  · have hexact := DeploymentConfig.exact_value hc
    rw [← c.render_value] at hdepth ⊢
    exact Json.decode_render hexact
      (DeploymentConfig.ofJson?_written hc (Json.nesting_le_of_nestedWithin hexact hdepth))

/-- Property values of every kind, in an order of their own. -/
def assortedPool : PoolProperties where
  poolType := "pool \"one\""
  props :=
    ⟨[("url", .string "tab\there \u00fc"),
      ("limits", .array [.integer (-9223372036854775808), .integer 18446744073709551615, .null]),
      ("extra", .object [("a", .bool true), ("b", .object [])])], by decide⟩

/-- A configuration with a traffic rule that has no labels. -/
def assortedConfig : DeploymentConfig where
  schema := "orders"
  dataSources := ⟨[("primary", assortedPool), ("other", .new "plain")], by decide⟩
  traffic := some ⟨[]⟩
  nodes := [⟨⟨.proxy, "10.0.0.1@3307"⟩, ["east", "west"]⟩]
  users := [⟨⟨"root", "%"⟩, "back\\slash"⟩]

theorem assorted_decoded :
    (assortedPool.Exact ∧ Json.NestedWithin Json.maxNesting assortedPool.render ∧
      Json.decode (PoolProperties.ofJson? Json.maxNesting) assortedPool.render =
        some assortedPool) ∧
    (assortedConfig.Exact ∧ Json.NestedWithin Json.maxNesting assortedConfig.render ∧
      Json.decode (DeploymentConfig.ofJson? Json.maxNesting) assortedConfig.render =
        some assortedConfig) := by
  have hkeys : ["a", "b"].Pairwise (· < ·) := by decide
  have hpool : assortedPool.Exact := by
    refine List.forall_mem_cons.mpr ⟨⟨trivial, trivial⟩, List.forall_mem_cons.mpr ⟨?_,
      List.forall_mem_singleton.mpr ⟨⟨trivial, trivial, trivial⟩, hkeys, trivial,
        ⟨List.Pairwise.nil, trivial⟩, trivial⟩⟩⟩
    exact ⟨⟨⟨by decide, by decide⟩, ⟨by decide, by decide⟩, trivial, trivial⟩,
      trivial, trivial, trivial, trivial⟩
  have hconfig : assortedConfig.Exact := by
    have hplain : (PoolProperties.new "plain").Exact := fun e he => absurd he List.not_mem_nil
    exact List.forall_mem_cons.mpr ⟨hpool, List.forall_mem_singleton.mpr hplain⟩
  have hpoolText : Json.NestedWithin Json.maxNesting assortedPool.render := by
    intro w hw
    rw [← PoolProperties.render_value,
      Json.ofChars?_render (PoolProperties.exact_value hpool)] at hw
    obtain rfl := Option.some.inj hw
    decide
  have hconfigText : Json.NestedWithin Json.maxNesting assortedConfig.render := by
    intro w hw
    rw [← DeploymentConfig.render_value,
      Json.ofChars?_render (DeploymentConfig.exact_value hconfig)] at hw
    obtain rfl := Option.some.inj hw
    decide
  exact ⟨⟨hpool, hpoolText, decode_inverts_encode.2.2.2.2.2.1 assortedPool hpool hpoolText⟩,
    hconfig, hconfigText,
    decode_inverts_encode.2.2.2.2.2.2 assortedConfig hconfig hconfigText⟩

end SessionBroker
