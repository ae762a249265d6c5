import Mathlib.Algebra.Ring.Nat
import Mathlib.Data.List.DropRight
import SessionBroker.Proofs.Holdings

/-!
# Holdings as a log of batches

Whatever is done with holdings, they answer like a plain list of the batches that were added since
the last drain. The list has no keys and no places: what is held for a name is picked out of it
anew, while holdings keep one entry per name, and a batch goes to the entry of its name wherever
that stands. An empty batch is in the list like any other, and makes its name known.
-/

namespace SessionBroker

/-! ## The log -/

/-- Batches under the names they were added for, in the order in which they were added. -/
abbrev BatchLog (κ : Type) := List (String × List κ)

namespace BatchLog

variable {κ : Type}

/-- The batches for a name, one behind the other. -/
def heldFor (log : BatchLog κ) (name : String) : List κ :=
  (log.filter fun batch => batch.1 = name).flatMap Prod.snd

/-- The names, each at its first place. -/
def names (log : BatchLog κ) : List String := (log.map Prod.fst).eraseDups

def entries (log : BatchLog κ) : List (String × List κ) :=
  log.names.map fun name => (name, log.heldFor name)

def size (log : BatchLog κ) : Nat := (log.names.map fun name => (log.heldFor name).length).sum

theorem heldFor_concat (log : BatchLog κ) (added : String × List κ) (name : String) :
    heldFor (log ++ [added]) name =
      if name = added.1 then log.heldFor name ++ added.2 else log.heldFor name := by
  unfold heldFor
  rw [List.filter_append, List.flatMap_append]
  by_cases h : name = added.1
  · simp [h]
  · simp [h, Ne.symm h]

theorem names_concat (log : BatchLog κ) (added : String × List κ) :
    names (log ++ [added]) =
      if added.1 ∈ log.names then log.names else log.names ++ [added.1] := by
  unfold names
  rw [List.map_append, List.map_singleton]
  exact eraseDups_concat (log.map Prod.fst) added.1

end BatchLog

/-! ## Operations -/

namespace Holdings

variable {κ : Type}

/-- What can be done with holdings. -/
inductive Operation (κ : Type) where
  | hold (name : String) (batch : List κ)
  | heldFor (name : String)
  | names
  | size
  | entries
  | drain

/-- What is learned from an operation. -/
inductive Finding (κ : Type) where
  | nothing
  | held (batch : List κ)
  | names (names : List String)
  | size (size : Nat)
  | entries (entries : List (String × List κ))
deriving DecidableEq

namespace Operation

def isDrain : Operation κ → Bool
  | .drain => true
  | _ => false

/-- The batch that is added. -/
def added? : Operation κ → Option (String × List κ)
  | .hold name batch => some (name, batch)
  | _ => none

/-- Operations that ask for something and do nothing. -/
def Looks : Operation κ → Prop
  | .hold _ _ | .drain => False
  | _ => True

end Operation

def perform (h : Holdings κ) : Operation κ → Finding κ × Holdings κ
  | .hold name batch => (.nothing, h.hold name batch)
  | .heldFor name => (.held (h.heldFor name), h)
  | .names => (.names h.names, h)
  | .size => (.size h.size, h)
  | .entries => (.entries h.entries, h)
  | .drain => (.entries h.drain.1, h.drain.2)

/-- Holdings after operations, one after the other. -/
def after (h : Holdings κ) (ops : List (Operation κ)) : Holdings κ :=
  ops.foldl (fun h op => (h.perform op).2) h

/-- What is learned from operations, one after the other. -/
def findings (h : Holdings κ) : List (Operation κ) → List (Finding κ)
  | [] => []
  | op :: ops => (h.perform op).1 :: (h.perform op).2.findings ops

theorem after_concat (h : Holdings κ) (ops : List (Operation κ)) (op : Operation κ) :
    h.after (ops ++ [op]) = ((h.after ops).perform op).2 := by
  unfold after
  rw [List.foldl_append]
  rfl

theorem length_findings (h : Holdings κ) (ops : List (Operation κ)) :
    (h.findings ops).length = ops.length := by
  induction ops generalizing h with
  | nil => rfl
  | cons op ops ih => rw [findings, List.length_cons, List.length_cons, ih]

theorem findings_append (h : Holdings κ) (ops ops' : List (Operation κ)) :
    h.findings (ops ++ ops') = h.findings ops ++ (h.after ops).findings ops' := by
  induction ops generalizing h with
  | nil => rfl
  | cons op ops ih =>
      rw [List.cons_append, findings, findings, ih, List.cons_append]
      rfl

end Holdings

open Holdings (Operation Finding)

/-! ## Side by side -/

section SideBySide

variable {κ : Type}

/-- The batches that operations have added since the last drain. -/
def BatchLog.ofOperations (ops : List (Operation κ)) : BatchLog κ :=
  (ops.rtakeWhile fun op => !op.isDrain).filterMap Operation.added?

theorem BatchLog.ofOperations_concat (ops : List (Operation κ)) (op : Operation κ) :
    ofOperations (ops ++ [op]) = if op.isDrain then [] else ofOperations ops ++ op.added?.toList := by
  unfold ofOperations
  rw [List.rtakeWhile_concat]
  cases hdrain : op.isDrain with
  | true => rfl
  | false =>
      rw [Bool.not_false, if_pos rfl, if_neg Bool.false_ne_true, List.filterMap_append]
      cases op <;> rfl

/-- What is learned from an operation, by the log. -/
def BatchLog.finding (log : BatchLog κ) : Operation κ → Finding κ
  | .hold _ _ => .nothing
  | .heldFor name => .held (log.heldFor name)
  | .names => .names log.names
  | .size => .size log.size
  | .entries | .drain => .entries log.entries

/-- Holdings that hold what a log tells, under the names that it tells. -/
structure Holdings.ToldBy (h : Holdings κ) (log : BatchLog κ) : Prop where
  heldFor_eq : ∀ name, h.heldFor name = log.heldFor name
  names_eq : h.names = log.names

namespace Holdings.ToldBy

variable {h : Holdings κ} {log : BatchLog κ}

theorem nothing : (Holdings.empty : Holdings κ).ToldBy [] where
  heldFor_eq := fun _ => rfl
  names_eq := rfl

theorem hold (htold : h.ToldBy log) (name : String) (batch : List κ) :
    (h.hold name batch).ToldBy (log ++ [(name, batch)]) where
  heldFor_eq := by
    intro other
    rw [Holdings.heldFor_hold, BatchLog.heldFor_concat, htold.heldFor_eq, htold.heldFor_eq]
    dsimp only
    split
    · next hname => rw [hname]
    · rfl
  names_eq := by
    rw [Holdings.names_hold, BatchLog.names_concat, htold.names_eq]

theorem entries_eq (htold : h.ToldBy log) : h.entries = log.entries := by
  rw [Holdings.entries_eq, htold.names_eq]
  exact List.map_congr_left fun name _ => by rw [htold.heldFor_eq]

theorem size_eq (htold : h.ToldBy log) : h.size = log.size := by
  have hentries : h.byName.entries = log.entries := htold.entries_eq
  unfold Holdings.size OrderedMap.values
  rw [List.length_flatten, hentries, BatchLog.entries, List.map_map, List.map_map]
  rfl

theorem finding_eq (htold : h.ToldBy log) (op : Operation κ) : (h.perform op).1 = log.finding op := by
  cases op with
  | hold name batch => rfl
  | heldFor name => exact congrArg Finding.held (htold.heldFor_eq name)
  | names => exact congrArg Finding.names htold.names_eq
  | size => exact congrArg Finding.size htold.size_eq
  | entries => exact congrArg Finding.entries htold.entries_eq
  | drain => exact congrArg Finding.entries htold.entries_eq

/-- One operation does to holdings what it does to the log. -/
theorem perform {ops : List (Operation κ)} (htold : h.ToldBy (BatchLog.ofOperations ops))
    (op : Operation κ) : (h.perform op).2.ToldBy (BatchLog.ofOperations (ops ++ [op])) := by
  rw [BatchLog.ofOperations_concat]
  cases op with
  | hold name batch => exact htold.hold name batch
  | drain => exact nothing
  | _ =>
      show h.ToldBy (BatchLog.ofOperations ops ++ [])
      rw [List.append_nil]
      exact htold

end Holdings.ToldBy

theorem toldBy_after (ops : List (Operation κ)) :
    (Holdings.empty.after ops).ToldBy (BatchLog.ofOperations ops) := by
  induction ops using List.reverseRecOn with
  | nil => exact .nothing
  | append_singleton ops op ih =>
      rw [Holdings.after_concat]
      exact ih.perform op

end SideBySide

/-! ## Main result -/

section MainResult

variable {κ : Type}

/-- What holdings are and answer in the course of operations, by the log. -/
structure RefinesLog (ops : List (Operation κ)) : Prop where
  heldFor_eq : ∀ name,
    (Holdings.empty.after ops).heldFor name = (BatchLog.ofOperations ops).heldFor name
  names_eq : (Holdings.empty.after ops).names = (BatchLog.ofOperations ops).names
  entries_eq : (Holdings.empty.after ops).entries = (Holdings.empty.after ops).names.map fun name =>
    (name, (Holdings.empty.after ops).heldFor name)
  size_eq : (Holdings.empty.after ops).size =
    ((Holdings.empty.after ops).entries.map fun e => e.2.length).sum
  /-- Whatever was learned on the way is what the log of that moment tells. -/
  findings_eq : ∀ pre op post, ops = pre ++ op :: post →
    (Holdings.empty.findings ops)[pre.length]? = some ((BatchLog.ofOperations pre).finding op)
  /-- Looking changes nothing. -/
  looked : ∀ op, op.Looks →
    (Holdings.empty.after (ops ++ [op])) = (Holdings.empty.after ops)
  /-- A drain takes out what the entries were, and then nothing tells the holdings from new ones. -/
  drained : ∀ more : List (Operation κ),
    Holdings.empty.findings (ops ++ .drain :: more) =
      Holdings.empty.findings ops ++
        .entries (Holdings.empty.after ops).entries :: Holdings.empty.findings more

theorem holdings_refine_log (ops : List (Operation κ)) : RefinesLog ops where
  heldFor_eq := (toldBy_after ops).heldFor_eq
  names_eq := (toldBy_after ops).names_eq
  entries_eq := Holdings.entries_eq _
  size_eq := by
    unfold Holdings.size OrderedMap.values
    rw [List.length_flatten, List.map_map]
    rfl
  findings_eq := by
    rintro pre op post rfl
    rw [Holdings.findings_append, List.getElem?_append_right (by rw [Holdings.length_findings]),
      Holdings.length_findings, Nat.sub_self, Holdings.findings, List.getElem?_cons_zero,
      (toldBy_after pre).finding_eq]
  looked := by
    intro op hlooks
    rw [Holdings.after_concat]
    cases op with
    | hold name batch => exact hlooks.elim
    | drain => exact hlooks.elim
    | _ => rfl
  drained := fun more => Holdings.findings_append Holdings.empty ops (.drain :: more)

/-- A name that is added to twice, and one whose only batch is empty. -/
example : (Holdings.empty : Holdings Nat).findings
    [.hold "b" [1], .hold "a" [], .hold "b" [2], .size, .drain, .names] =
      [.nothing, .nothing, .nothing, .size 2, .entries [("b", [1, 2]), ("a", [])], .names []] := by
  decide

end MainResult

end SessionBroker
