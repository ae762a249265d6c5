import SessionBroker.OrderedMap

/-!
# Held connections

What a session holds: for each data source name the connections it acquired, in
acquisition order, the names in the order of their first acquisition.
-/

namespace SessionBroker

/-- Connections by data source name. -/
structure Holdings (κ : Type) where
  byName : OrderedMap String (List κ)

namespace Holdings

variable {κ : Type}

def empty : Holdings κ := ⟨.empty⟩

instance : Inhabited (Holdings κ) := ⟨empty⟩

/-- The connections held for a name; none if the name is unknown. -/
def heldFor (h : Holdings κ) (name : String) : List κ := (h.byName.get? name).getD []

/-- Adds connections behind those already held for the name. An empty batch still makes the
name known. -/
def hold (h : Holdings κ) (name : String) (batch : List κ) : Holdings κ :=
  ⟨h.byName.insert name (h.heldFor name ++ batch)⟩

def names (h : Holdings κ) : List String := h.byName.keys

def entries (h : Holdings κ) : List (String × List κ) := h.byName.entries

def size (h : Holdings κ) : Nat := h.byName.values.flatten.length

/-- Takes everything out. -/
def drain (h : Holdings κ) : List (String × List κ) × Holdings κ := (h.entries, empty)

/-! ## What holding a batch does -/

@[simp]
theorem heldFor_empty (name : String) : (empty : Holdings κ).heldFor name = [] := rfl

theorem heldFor_hold (h : Holdings κ) (name other : String) (batch : List κ) :
    (h.hold name batch).heldFor other =
      if other = name then h.heldFor name ++ batch else h.heldFor other := by
  unfold heldFor hold
  rw [OrderedMap.get?_insert]
  split <;> rfl

theorem names_hold (h : Holdings κ) (name : String) (batch : List κ) :
    (h.hold name batch).names = if name ∈ h.names then h.names else h.names ++ [name] :=
  OrderedMap.keys_insert h.byName name _

end Holdings

end SessionBroker
