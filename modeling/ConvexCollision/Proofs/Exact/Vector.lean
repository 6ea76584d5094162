import Mathlib.LinearAlgebra.AffineSpace.Independent
import Mathlib.LinearAlgebra.Matrix.NonsingularInverse
import Mathlib.Tactic.LinearCombination
import Mathlib.Tactic.Module
import ConvexCollision.Vector
import ConvexCollision.Proofs.Exact.Scalar

/-!
# ConvexCollision.Proofs.Exact.Vector -- space over the real numbers

Over the real numbers the vectors of the geometry form a vector space, in which the geometry's own
operations are the usual ones: `dot` is bilinear and positive, and `cross` is alternating. What the
proofs need of coordinates is said here; after that they calculate with vectors.
-/

namespace ConvexCollision

attribute [ext] Vec3

namespace Vec3

/-! ## § The vector space -/

noncomputable instance : Zero (Vec3 ℝ) := ⟨zero⟩

noncomputable instance : SMul ℝ (Vec3 ℝ) := ⟨fun s a => a.scale s⟩

variable (a b c d : Vec3 ℝ) (s t : ℝ)

@[simp] theorem zero_x : (0 : Vec3 ℝ).x = 0 := Scalar.zero_real
@[simp] theorem zero_y : (0 : Vec3 ℝ).y = 0 := Scalar.zero_real
@[simp] theorem zero_z : (0 : Vec3 ℝ).z = 0 := Scalar.zero_real
@[simp] theorem add_x : (a + b).x = a.x + b.x := rfl
@[simp] theorem add_y : (a + b).y = a.y + b.y := rfl
@[simp] theorem add_z : (a + b).z = a.z + b.z := rfl
@[simp] theorem sub_x : (a - b).x = a.x - b.x := rfl
@[simp] theorem sub_y : (a - b).y = a.y - b.y := rfl
@[simp] theorem sub_z : (a - b).z = a.z - b.z := rfl
@[simp] theorem neg_x : (-a).x = -a.x := rfl
@[simp] theorem neg_y : (-a).y = -a.y := rfl
@[simp] theorem neg_z : (-a).z = -a.z := rfl
@[simp] theorem smul_x : (s • a).x = s * a.x := mul_comm _ _
@[simp] theorem smul_y : (s • a).y = s * a.y := mul_comm _ _
@[simp] theorem smul_z : (s • a).z = s * a.z := mul_comm _ _

noncomputable instance : AddCommGroup (Vec3 ℝ) where
  add_assoc _ _ _ := by ext <;> exact add_assoc _ _ _
  zero_add _ := by ext <;> simp
  add_zero _ := by ext <;> simp
  add_comm _ _ := by ext <;> exact add_comm _ _
  neg_add_cancel _ := by ext <;> simp
  sub_eq_add_neg _ _ := by ext <;> exact sub_eq_add_neg _ _
  nsmul := nsmulRec
  zsmul := zsmulRec

noncomputable instance : Module ℝ (Vec3 ℝ) where
  one_smul _ := by ext <;> simp
  mul_smul _ _ _ := by ext <;> simp [mul_assoc]
  smul_zero _ := by ext <;> simp
  zero_smul _ := by ext <;> simp
  smul_add _ _ _ := by ext <;> simp [mul_add]
  add_smul _ _ _ := by ext <;> simp [add_mul]

/-- The geometry writes the number on the right. -/
@[simp] theorem mul_eq_smul : a * s = s • a := rfl

@[simp] theorem div_eq_smul : a / s = s⁻¹ • a := by
  change shrink a s = scale a s⁻¹
  ext <;> exact div_eq_mul_inv _ _

@[simp] theorem zero_eq : (zero : Vec3 ℝ) = 0 := rfl

/-! ## § The inner product -/

theorem dot_def : a.dot b = a.x * b.x + a.y * b.y + a.z * b.z := rfl

theorem dot_comm : a.dot b = b.dot a := by
  simp only [dot_def]
  ring

@[simp] theorem dot_zero : a.dot 0 = 0 := by simp [dot_def]
@[simp] theorem zero_dot : (0 : Vec3 ℝ).dot a = 0 := by simp [dot_def]

@[simp] theorem dot_add : a.dot (b + c) = a.dot b + a.dot c := by
  simp only [dot_def, add_x, add_y, add_z]
  ring

@[simp] theorem add_dot : (a + b).dot c = a.dot c + b.dot c := by
  simp only [dot_def, add_x, add_y, add_z]
  ring

@[simp] theorem dot_sub : a.dot (b - c) = a.dot b - a.dot c := by
  simp only [dot_def, sub_x, sub_y, sub_z]
  ring

@[simp] theorem sub_dot : (a - b).dot c = a.dot c - b.dot c := by
  simp only [dot_def, sub_x, sub_y, sub_z]
  ring

@[simp] theorem dot_neg : a.dot (-b) = -a.dot b := by
  simp only [dot_def, neg_x, neg_y, neg_z]
  ring

@[simp] theorem neg_dot : (-a).dot b = -a.dot b := by
  simp only [dot_def, neg_x, neg_y, neg_z]
  ring

@[simp] theorem dot_smul : a.dot (s • b) = s * a.dot b := by
  simp only [dot_def, smul_x, smul_y, smul_z]
  ring

@[simp] theorem smul_dot : (s • a).dot b = s * a.dot b := by
  simp only [dot_def, smul_x, smul_y, smul_z]
  ring

theorem lengthSq_eq : a.lengthSq = a.dot a := rfl

@[simp] theorem lengthSq_neg : (-a).lengthSq = a.lengthSq := by
  rw [lengthSq_eq, neg_dot, dot_neg, neg_neg, lengthSq_eq]

theorem dot_self_nonneg : 0 ≤ a.dot a := by
  rw [dot_def]
  exact add_nonneg (add_nonneg (mul_self_nonneg _) (mul_self_nonneg _)) (mul_self_nonneg _)

@[simp] theorem dot_self_eq_zero : a.dot a = 0 ↔ a = 0 := by
  constructor
  · intro h
    simp only [dot_def] at h
    ext <;> simp only [zero_x, zero_y, zero_z] <;>
      nlinarith [sq_nonneg a.x, sq_nonneg a.y, sq_nonneg a.z]
  · rintro rfl
    simp

theorem dot_self_pos {a : Vec3 ℝ} (h : a ≠ 0) : 0 < a.dot a :=
  lt_of_le_of_ne (dot_self_nonneg a) (Ne.symm (mt (dot_self_eq_zero a).mp h))

/-- Two unit vectors have an inner product of at most one. -/
theorem dot_le_one {a b : Vec3 ℝ} (ha : a.dot a = 1) (hb : b.dot b = 1) : a.dot b ≤ 1 := by
  have h := dot_self_nonneg (a - b)
  simp only [dot_sub, sub_dot, ha, hb, dot_comm b a] at h
  linarith

/-- The inner product with a vector, as a linear function. -/
noncomputable def dotHom (v : Vec3 ℝ) : Vec3 ℝ →ₗ[ℝ] ℝ where
  toFun := v.dot
  map_add' := v.dot_add
  map_smul' s a := v.dot_smul a s

/-! ## § The vector product -/

theorem cross_x : (a.cross b).x = a.y * b.z - b.y * a.z := rfl
theorem cross_y : (a.cross b).y = a.z * b.x - b.z * a.x := rfl
theorem cross_z : (a.cross b).z = a.x * b.y - b.x * a.y := rfl

@[simp] theorem cross_zero : a.cross 0 = 0 := by
  ext <;> simp [cross_x, cross_y, cross_z]

@[simp] theorem zero_cross : (0 : Vec3 ℝ).cross a = 0 := by
  ext <;> simp [cross_x, cross_y, cross_z]

@[simp] theorem cross_self : a.cross a = 0 := by
  ext <;> simp [cross_x, cross_y, cross_z, mul_comm]

theorem cross_comm : a.cross b = -b.cross a := by
  ext <;> simp only [cross_x, cross_y, cross_z, neg_x, neg_y, neg_z] <;> ring

@[simp] theorem add_cross : (a + b).cross c = a.cross c + b.cross c := by
  ext <;> simp only [cross_x, cross_y, cross_z, add_x, add_y, add_z] <;> ring

@[simp] theorem sub_cross : (a - b).cross c = a.cross c - b.cross c := by
  ext <;> simp only [cross_x, cross_y, cross_z, sub_x, sub_y, sub_z] <;> ring

@[simp] theorem cross_sub : a.cross (b - c) = a.cross b - a.cross c := by
  ext <;> simp only [cross_x, cross_y, cross_z, sub_x, sub_y, sub_z] <;> ring

@[simp] theorem smul_cross : (s • a).cross b = s • a.cross b := by
  ext <;> simp only [cross_x, cross_y, cross_z, smul_x, smul_y, smul_z] <;> ring

@[simp] theorem cross_smul : a.cross (s • b) = s • a.cross b := by
  ext <;> simp only [cross_x, cross_y, cross_z, smul_x, smul_y, smul_z] <;> ring

@[simp] theorem dot_cross_self_left : a.dot (a.cross b) = 0 := by
  simp only [dot_def, cross_x, cross_y, cross_z]
  ring

@[simp] theorem dot_cross_self_right : b.dot (a.cross b) = 0 := by
  simp only [dot_def, cross_x, cross_y, cross_z]
  ring

@[simp] theorem cross_dot_self_left : (a.cross b).dot a = 0 := by
  rw [dot_comm, dot_cross_self_left]

@[simp] theorem cross_dot_self_right : (a.cross b).dot b = 0 := by
  rw [dot_comm, dot_cross_self_right]

/-- The triple product turns around. -/
theorem cross_dot_rotate : (a.cross b).dot c = (b.cross c).dot a := by
  simp only [dot_def, cross_x, cross_y, cross_z]
  ring

/-- The triple product changes its sign when two of the vectors change places. -/
theorem cross_dot_reverse : (a.cross b).dot c = -(c.cross b).dot a := by
  simp only [dot_def, cross_x, cross_y, cross_z]
  ring

theorem cross_cross : (a.cross b).cross c = (a.dot c) • b - (b.dot c) • a := by
  ext <;> simp only [dot_def, cross_x, cross_y, cross_z, sub_x, sub_y, sub_z, smul_x, smul_y,
    smul_z] <;> ring

/-- The planes through two vectors and through one of them and a third meet in that one. -/
theorem cross_cross_cross : (a.cross b).cross (c.cross a) = (-(a.cross b).dot c) • a := by
  ext <;> simp only [dot_def, cross_x, cross_y, cross_z, smul_x, smul_y, smul_z] <;> ring

/-- Three vectors span every vector, up to the factor of their triple product. -/
theorem cross_dot_smul : ((a.cross b).dot c) • d =
    (d.dot c) • a.cross b + (d.dot a) • b.cross c + (d.dot b) • c.cross a := by
  ext <;> simp only [dot_def, cross_x, cross_y, cross_z, add_x, add_y, add_z, smul_x, smul_y,
    smul_z] <;> ring

/-- The vector product of two sides of a triangle is the same at each corner. -/
theorem sides_cross_rotate : (b - a).cross (c - a) = (c - b).cross (a - b) := by
  ext <;> simp only [cross_x, cross_y, cross_z, sub_x, sub_y, sub_z] <;> ring

/-- The triple product of the corners of a triangle, by its sides and one corner. -/
theorem sides_cross_dot : ((b - a).cross (c - a)).dot a = (a.cross b).dot c := by
  simp only [dot_def, cross_x, cross_y, cross_z, sub_x, sub_y, sub_z]
  ring

/-- The volume of a tetrahedron, from the corner where the last face has its first corner. -/
theorem cross_dot_opposite :
    ((d - b).cross (c - b)).dot (a - b) = ((b - a).cross (c - a)).dot (d - a) := by
  simp only [dot_def, cross_x, cross_y, cross_z, sub_x, sub_y, sub_z]
  ring

/-- The vector product of two vectors in a plane is a multiple of the plane's normal. -/
theorem cross_of_plane {n : Vec3 ℝ} (ha : a.dot n = 0) (hb : b.dot n = 0) :
    (n.dot n) • a.cross b = ((a.cross b).dot n) • n := by
  have h := cross_dot_smul a b n n
  rw [dot_comm n a, dot_comm n b, ha, hb, zero_smul, zero_smul, add_zero, add_zero] at h
  exact h.symm

/-- Four vectors of space depend on each other. -/
theorem four_vectors :
    ((b.cross c).dot d) • a + ((c.cross a).dot d) • b + ((a.cross b).dot d) • c =
      ((a.cross b).dot c) • d := by
  ext <;> simp only [dot_def, cross_x, cross_y, cross_z, add_x, add_y, add_z, smul_x, smul_y,
    smul_z] <;> ring

/-- A triangle is made up of the three that a point in space makes with its sides. -/
theorem cross_add_cross_add_cross :
    (b - d).cross (c - d) + (c - d).cross (a - d) + (a - d).cross (b - d) = (b - a).cross (c - a) := by
  ext <;> simp only [cross_x, cross_y, cross_z, add_x, add_y, add_z, sub_x, sub_y, sub_z] <;> ring

/-! ## § Coordinates -/

/-- A vector is its three coordinates. -/
noncomputable def coords : Vec3 ℝ ≃ₗ[ℝ] (Fin 3 → ℝ) where
  toFun a := ![a.x, a.y, a.z]
  invFun c := ⟨c 0, c 1, c 2⟩
  map_add' _ _ := by ext i; fin_cases i <;> rfl
  map_smul' _ _ := by ext i; fin_cases i <;> simp
  left_inv _ := rfl
  right_inv _ := by ext i; fin_cases i <;> rfl

@[simp] theorem coords_zero : coords a 0 = a.x := rfl
@[simp] theorem coords_one : coords a 1 = a.y := rfl
@[simp] theorem coords_two : coords a 2 = a.z := rfl

/-- Four points are affinely independent when they span a volume. -/
theorem affineIndependent_iff_volume_ne_zero {p : Fin 4 → Vec3 ℝ} :
    AffineIndependent ℝ p ↔ ((p 1 - p 0).cross (p 2 - p 0)).dot (p 3 - p 0) ≠ 0 := by
  -- the three edges from the first point, as the rows of a matrix
  let rows : Matrix (Fin 3) (Fin 3) ℝ := Matrix.of fun i => coords (p i.succ - p 0)
  have hrows : AffineIndependent ℝ p ↔ LinearIndependent ℝ rows.row := by
    rw [affineIndependent_iff_linearIndependent_vsub ℝ p 0,
      ← linearIndependent_equiv (finSuccAboveEquiv (0 : Fin 4)),
      ← coords.toLinearMap.linearIndependent_iff (LinearEquiv.ker coords)]
    rfl
  have hdet : rows.det = ((p 1 - p 0).cross (p 2 - p 0)).dot (p 3 - p 0) := by
    rw [Matrix.det_fin_three]
    simp only [rows, Matrix.of_apply, coords_zero, coords_one, coords_two, Fin.succ_zero_eq_one,
      Fin.succ_one_eq_two, show (2 : Fin 3).succ = (3 : Fin 4) from rfl, dot_def, cross_x, cross_y,
      cross_z]
    ring
  rw [hrows, Matrix.linearIndependent_rows_iff_isUnit, Matrix.isUnit_iff_isUnit_det,
    isUnit_iff_ne_zero, hdet]

end Vec3

end ConvexCollision
