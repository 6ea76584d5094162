import Mathlib.Data.List.Nodup
import ConvexCollision.Json

/-!
# ConvexCollision.Proofs.Format.Record -- what is written is read back, piece by piece

Numbers, words, lists, named values, records and choices each have a way to be written and a way to be
read. Here each reader is shown to undo its writer: of a number, if it is finite (`scalar?_ofScalar`), of a
count, if it fits its word (`natBelow?_ofNat`), of a value by name, if the names differ (`named?_ofNamed`),
of a record, field by field (`Record.field_cons_self`, `Record.field_cons_of_ne`), and of a choice, if all
of it can be read and no field takes the place of its name (`tagged?_ofTagged`).
-/

namespace ConvexCollision

variable {α β : Type}

namespace Json

/-! ## §A Simple values -/

theorem scalar?_ofScalar [Scalar α] {x : α} (h : Scalar.isFinite x = true) :
    (ofScalar x).scalar? = some x := by
  rw [ofScalar, if_pos h]
  rfl

theorem natBelow?_ofNat {n limit : Nat} (h : n < limit) : (ofNat n : Json α).natBelow? limit = some n := by
  have hfits : (0 : Int) ≤ n ∧ (n : Int).toNat < limit := ⟨Int.natCast_nonneg n, h⟩
  show (if (0 : Int) ≤ n ∧ (n : Int).toNat < limit then some (n : Int).toNat else none) = some n
  rw [if_pos hfits]
  rfl

@[simp]
theorem uint8?_ofNat (n : UInt8) : (ofNat n.toNat : Json α).uint8? = some n := by
  rw [uint8?, natBelow?_ofNat n.toNat_lt_size, Option.map_some, UInt8.ofNat_toNat]

@[simp]
theorem uint16?_ofNat (n : UInt16) : (ofNat n.toNat : Json α).uint16? = some n := by
  rw [uint16?, natBelow?_ofNat n.toNat_lt_size, Option.map_some, UInt16.ofNat_toNat]

@[simp]
theorem uint32?_ofNat (n : UInt32) : (ofNat n.toNat : Json α).uint32? = some n := by
  rw [uint32?, natBelow?_ofNat n.toNat_lt_size, Option.map_some, UInt32.ofNat_toNat]

theorem listOf?_ofList {write : β → Json α} {read? : Json α → Option β} {l : List β}
    (h : ∀ b ∈ l, read? (write b) = some b) : listOf? read? (ofList write l) = some l := by
  show (l.map write).mapM read? = some l
  induction l with
  | nil => rfl
  | cons b l ih =>
    rw [List.map_cons, List.mapM_cons, h b List.mem_cons_self, ih fun b' hb => h b' (List.mem_cons_of_mem b hb)]
    rfl

/-- Values whose names differ are read back from their names. -/
theorem named?_ofNamed [DecidableEq β] {names : List (String × β)} (hnames : (names.map (·.1)).Nodup)
    {value : β} (h : value ∈ names.map (·.2)) :
    named? names (ofNamed names value : Json α) = some value := by
  obtain ⟨named, hmem, hvalue⟩ := List.mem_map.mp h
  have hsome : (names.find? fun n => n.2 = value).isSome :=
    List.find?_isSome.mpr ⟨named, hmem, decide_eq_true hvalue⟩
  obtain ⟨n, hn⟩ := Option.isSome_iff_exists.mp hsome
  obtain ⟨hfound, before, after, hsplit, -⟩ := List.find?_eq_some_iff_append.mp hn
  have hfirst : ∀ p ∈ before, n.1 != p.1 := by
    intro p hp
    rw [hsplit, List.map_append, List.map_cons] at hnames
    have hdiffer := (List.nodup_append.mp hnames).2.2 p.1 (List.mem_map_of_mem hp) n.1 List.mem_cons_self
    exact bne_iff_ne.mpr hdiffer.symm
  rw [ofNamed, hn]
  show names.lookup n.1 = some value
  rw [← of_decide_eq_true hfound]
  exact List.lookup_eq_some_iff.mpr ⟨before, after, hsplit, hfirst⟩

/-! ## §B Documents that can be read -/

@[simp]
theorem isReadable_ofScalar [Scalar α] (x : α) : (ofScalar x).isReadable = true := by
  unfold ofScalar
  split <;> rfl

@[simp]
theorem isReadable_arr (items : List (Json α)) : (arr items).isReadable = items.all isReadable := by
  show itemsReadable items = _
  induction items with
  | nil => rfl
  | cons item items ih =>
    rw [itemsReadable, List.all_cons, ih]

@[simp]
theorem isReadable_obj (fields : List (String × Json α)) :
    (obj fields).isReadable = fields.all fun f => f.2.isReadable := by
  show fieldsReadable fields = _
  induction fields with
  | nil => rfl
  | cons f fields ih =>
    rw [fieldsReadable, List.all_cons, ih]

/-! ## §C Choices -/

/-- The name of a choice is found, and what is left are its fields. -/
theorem tagged?_ofTagged {tag : String} {fields : List (String × Json α)}
    (hreadable : ∀ f ∈ fields, f.2.isReadable = true) (hfree : ∀ f ∈ fields, f.1 ≠ "type") :
    (ofTagged tag fields).tagged? = some (tag, obj fields) := by
  have hall : (ofTagged tag fields).isReadable = true := by
    rw [ofTagged, isReadable_obj, List.all_cons]
    exact Bool.and_eq_true_iff.mpr ⟨rfl, List.all_eq_true.mpr hreadable⟩
  have hparts : (("type", str tag) :: fields).partition (fun f => f.1 == "type") =
      ([("type", str tag)], fields) := by
    have hname : fields.filter (fun f => f.1 == "type") = [] :=
      List.filter_eq_nil_iff.mpr fun f hf h => hfree f hf (beq_iff_eq.mp h)
    have hrest : fields.filter (not ∘ fun f => f.1 == "type") = fields :=
      List.filter_eq_self.mpr fun f hf =>
        congrArg not (beq_eq_false_iff_ne.mpr (hfree f hf))
    rw [List.partition_eq_filter_filter, List.filter_cons_of_pos rfl, List.filter_cons_of_neg (by simp),
      hname, hrest]
  unfold tagged?
  rw [if_pos hall, ofTagged]
  dsimp only
  rw [hparts]

end Json

/-! ## §D Records -/

namespace Record

/-- An object whose keys differ is a record, whichever the names. -/
theorem ofJson?_obj {names : List String} {fields : List (String × Json α)}
    (h : (fields.map (·.1)).Nodup) : ofJson? names (.obj fields) = some ⟨fields⟩ := by
  have honce (name : String) : (fields.filter fun f => f.1 == name).length ≤ 1 := by
    have hcount := List.nodup_iff_count_le_one.mp h name
    rwa [List.count, List.countP_map, List.countP_eq_length_filter] at hcount
  rw [ofJson?, if_pos (List.all_eq_true.mpr fun name _ => decide_eq_true (honce name))]

section Fields

variable {name : String} {j : Json α} {rest : List (String × Json α)} {read? : Json α → Option β}

@[simp]
theorem field_cons_self : field ⟨(name, j) :: rest⟩ name read? = read? j := by
  rw [field, List.lookup_cons_self]
  rfl

@[simp]
theorem field_cons_of_ne {other : String} (h : other ≠ name) :
    field ⟨(name, j) :: rest⟩ other read? = field ⟨rest⟩ other read? := by
  rw [field, List.lookup_cons, beq_eq_false_iff_ne.mpr h]
  rfl

@[simp]
theorem fieldD_cons_self {absent : β} : fieldD ⟨(name, j) :: rest⟩ name read? absent = read? j := by
  rw [fieldD, List.lookup_cons_self]

@[simp]
theorem fieldD_cons_of_ne {other : String} (h : other ≠ name) {absent : β} :
    fieldD ⟨(name, j) :: rest⟩ other read? absent = fieldD ⟨rest⟩ other read? absent := by
  rw [fieldD, List.lookup_cons, beq_eq_false_iff_ne.mpr h]
  rfl

end Fields

end Record

/-! ## §E Documents compared -/

namespace Json

variable [DecidableEq α]

mutual

/-- The two documents are made of the same parts. -/
def same : Json α → Json α → Bool
  | .null, .null => true
  | .bool a, .bool b => a == b
  | .int a, .int b => a == b
  | .float a, .float b => decide (a = b)
  | .str a, .str b => a == b
  | .arr as, .arr bs => itemsSame as bs
  | .obj as, .obj bs => fieldsSame as bs
  | .unreadable, .unreadable => true
  | _, _ => false

/-- So are the items of two arrays. -/
def itemsSame : List (Json α) → List (Json α) → Bool
  | [], [] => true
  | a :: as, b :: bs => same a b && itemsSame as bs
  | _, _ => false

/-- So are the fields of two objects. -/
def fieldsSame : List (String × Json α) → List (String × Json α) → Bool
  | [], [] => true
  | (s, a) :: as, (t, b) :: bs => s == t && same a b && fieldsSame as bs
  | _, _ => false

end

mutual

theorem eq_of_same : ∀ {a b : Json α}, same a b = true → a = b
  | .null, .null, _ => rfl
  | .bool _, .bool _, h => congrArg bool (beq_iff_eq.mp h)
  | .int _, .int _, h => congrArg int (beq_iff_eq.mp h)
  | .float _, .float _, h => congrArg float (of_decide_eq_true h)
  | .str _, .str _, h => congrArg str (beq_iff_eq.mp h)
  | .arr _, .arr _, h => congrArg arr (eq_of_itemsSame h)
  | .obj _, .obj _, h => congrArg obj (eq_of_fieldsSame h)
  | .unreadable, .unreadable, _ => rfl

theorem eq_of_itemsSame : ∀ {as bs : List (Json α)}, itemsSame as bs = true → as = bs
  | [], [], _ => rfl
  | _ :: _, _ :: _, h => by
    obtain ⟨hfirst, hrest⟩ := Bool.and_eq_true_iff.mp h
    rw [eq_of_same hfirst, eq_of_itemsSame hrest]

theorem eq_of_fieldsSame : ∀ {as bs : List (String × Json α)}, fieldsSame as bs = true → as = bs
  | [], [], _ => rfl
  | (_, _) :: _, (_, _) :: _, h => by
    obtain ⟨hfirst, hrest⟩ := Bool.and_eq_true_iff.mp h
    obtain ⟨hname, hvalue⟩ := Bool.and_eq_true_iff.mp hfirst
    rw [beq_iff_eq.mp hname, eq_of_same hvalue, eq_of_fieldsSame hrest]

end

end Json

end ConvexCollision
