import ShaderBuild.Proofs.Code.StructSize

namespace ShaderBuild.Code

/-- The instance a table gives for a number: that of the entry at this position, or else that for a
miss. -/
def TableDecl.instanceAt (d : TableDecl) (k : UInt32) : String :=
  (d.entries[k.toNat]?.map (·.2)).getD d.fallback

/-- The instance a table gives for a name: that of the first entry with the name as its key, or else
that for a miss. -/
def TableDecl.instanceNamed (d : TableDecl) (n : String) : String :=
  (d.entries.lookup n).getD d.fallback

/-- The number that a value has in a file. Sizes of types are up to the compiler. -/
def Value.number? (f : File) : Value → Option UInt32
  | .uint n => some n
  | .maxUInt32 => some 0xFFFFFFFF
  | .enumIndex e v => (f.enum? e).bind (·.valueOf? v)
  | .enumVariant .. | .sizeOf _ | .str _ | .blob _ | .blobLength .. | .noBlob => none

def InstanceDecl.number? (f : File) (d : InstanceDecl) (field : String) : Option UInt32 :=
  (d.values.lookup field).bind (·.number? f)

theorem flattenItems_of_flat {is : List Item} (h : ∀ i ∈ is, i.flatten = [i]) :
    flattenItems is = is := by
  induction is with
  | nil => rfl
  | cons i r ih =>
    rw [flattenItems, h i (List.mem_cons_self ..), ih fun j hj => h j (List.mem_cons_of_mem _ hj)]
    rfl

theorem lookup_map {α β : Type} (key : α → String) (value : α → β) (xs : List α) (n : String) :
    (xs.map fun x => (key x, value x)).lookup n = (xs.find? (key · == n)).map value := by
  induction xs with
  | nil => rfl
  | cons x r ih =>
    rw [List.map_cons, List.lookup_cons, List.find?_cons, ih, Bool.beq_comm]
    cases key x == n <;> rfl

end ShaderBuild.Code
