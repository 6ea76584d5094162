import ConvexCollision.Object
import ConvexCollision.Proofs.Exact.Shape

/-!
# ConvexCollision.Proofs.Exact.Body -- support functions of solids that are put in place

A solid may be scaled, turned, put in place, moved along and stretched along a motion, and each of these
has its own way from the support function of the inner set to that of the outer one: the direction is
turned back, in the opposite order from the points, and a stretch adds its offset along the directions that
face it. `Body` is the language of these compositions, and `Body.points` says which points each of them
stands for.

Whatever moves the points of a set without bending it takes a furthest point to a furthest point
(`Furthest.moved`), and a point beyond the set to a point beyond it (`Overshoots.moved`). By induction over
the composition the support function of a body is exact along a direction just when the solid inside
resolves the direction as it arrives there (`Body.furthest_support_iff`). Only a swing can fail to.
-/

namespace ConvexCollision

open Support

/-! ## §A Sets that are moved -/

variable {a b : Support ℝ} {A : Set (Vec3 ℝ)} {d e : Vec3 ℝ} {f : Vec3 ℝ → Vec3 ℝ} {k c : ℝ}

/-- A furthest point stays one when the points are moved so that the old direction, enlarged, still tells
how far along the new one they lie. -/
theorem Furthest.moved (h : Furthest a A e) (hk : 0 ≤ k) (hdot : ∀ p, d.dot (f p) = k * e.dot p + c)
    (hb : b d = f (a e)) : Furthest b (f '' A) d where
  mem := hb ▸ Set.mem_image_of_mem f h.mem
  le := by
    rintro _ ⟨p, hp, rfl⟩
    rw [hb, hdot, hdot]
    exact add_le_add_left (mul_le_mul_of_nonneg_left (h.le p hp) hk) c

theorem Overshoots.moved (h : Overshoots a A e) (hk : 0 < k)
    (hdot : ∀ p, d.dot (f p) = k * e.dot p + c) (hb : b d = f (a e)) : Overshoots b (f '' A) d := by
  rintro _ ⟨p, hp, rfl⟩
  rw [hb, hdot, hdot]
  exact add_lt_add_left (mul_lt_mul_of_pos_left (h p hp) hk) c

/-- The points on the way between a set and where it is moved to, in straight lines: the hull of both. -/
def stretchPoints (A : Set (Vec3 ℝ)) (offset : Vec3 ℝ) : Set (Vec3 ℝ) :=
  convexHull ℝ (A ∪ (· + offset) '' A)

variable {offset : Vec3 ℝ}

/-- A stretch reaches as far as the offset does, where that is forward. -/
theorem dot_stretch (a : Support ℝ) (offset d : Vec3 ℝ) :
    d.dot (stretch a offset d) = d.dot (a d) + max 0 (d.dot offset) := by
  simp only [stretch, Scalar.zero_real, Vec3.dot_comm offset]
  split
  · rw [Vec3.dot_add, max_eq_right (le_of_lt ‹_›)]
  · rw [max_eq_left (not_lt.mp ‹_›), add_zero]

theorem Furthest.stretch (h : Furthest a A d) (offset : Vec3 ℝ) :
    Furthest (stretch a offset) (stretchPoints A offset) d where
  mem := by
    apply subset_convexHull
    unfold Support.stretch
    split
    · exact .inr (Set.mem_image_of_mem _ h.mem)
    · exact .inl h.mem
  le x hx := by
    rw [dot_stretch]
    apply Vec3.dot_le_of_mem_convexHull hx
    rintro y (hy | ⟨y, hy, rfl⟩)
    · exact (h.le y hy).trans (le_add_of_nonneg_right (le_max_left _ _))
    · rw [Vec3.dot_add]
      exact add_le_add (h.le y hy) (le_max_right _ _)

theorem Overshoots.stretch (h : Overshoots a A d) (offset : Vec3 ℝ) :
    Overshoots (stretch a offset) (stretchPoints A offset) d := by
  intro x hx
  rw [dot_stretch]
  apply Vec3.dot_lt_of_mem_convexHull hx
  rintro y (hy | ⟨y, hy, rfl⟩)
  · exact (h y hy).trans_le (le_add_of_nonneg_right (le_max_left _ _))
  · rw [Vec3.dot_add]
    exact add_lt_add_of_lt_of_le (h y hy) (le_max_right _ _)

/-! ## §B Turns -/

namespace Rotation

variable {α : Type} [Scalar α]

/-- A point of a set that may be turned about the vertical axis, in the world. -/
def yawed (turn : Option (Rotation α)) (p : Vec3 α) : Vec3 α :=
  match turn with
  | some r => r.yawToWorld p
  | none => p

/-- A direction of the world, as the set that may be turned about the vertical axis sees it. -/
def unyawed (turn : Option (Rotation α)) (d : Vec3 α) : Vec3 α :=
  match turn with
  | some r => r.yawToLocal d
  | none => d

/-- A point of a set that may be turned about the x axis, outside of it. -/
def pitched (turn : Option (Rotation α)) (p : Vec3 α) : Vec3 α :=
  match turn with
  | some r => r.pitchToWorld p
  | none => p

/-- A direction outside, as the set that may be turned about the x axis sees it. -/
def unpitched (turn : Option (Rotation α)) (d : Vec3 α) : Vec3 α :=
  match turn with
  | some r => r.pitchToLocal d
  | none => d

variable (turn : Option (Rotation ℝ)) (d p : Vec3 ℝ)

/-- A turned point lies as far along a direction as the point along the direction turned back. -/
theorem dot_yawed : d.dot (yawed turn p) = (unyawed turn d).dot p := by
  cases turn with
  | none => rfl
  | some r =>
    simp only [yawed, unyawed, yawToWorld, yawToLocal, Vec3.dot_def]
    ring

theorem dot_pitched : d.dot (pitched turn p) = (unpitched turn d).dot p := by
  cases turn with
  | none => rfl
  | some r =>
    simp only [pitched, unpitched, pitchToWorld, pitchToLocal, Vec3.dot_def]
    ring

end Rotation

open Rotation

/-! ## §C Solids in their places -/

namespace Placed

/-- Where a point of the solid is put. -/
def place {α : Type} [Scalar α] (p : Placed α) (x : Vec3 α) : Vec3 α := yawed p.rotation x + p.position

/-- The points of a solid that is put in place. -/
def points (p : Placed ℝ) : Set (Vec3 ℝ) := p.place '' p.shape.points

variable (p : Placed ℝ) (d : Vec3 ℝ)

theorem support_eq : p.support d = p.place (p.shape.support (unyawed p.rotation d)) := by
  unfold Placed.support place yawed unyawed
  cases p.rotation <;> rfl

theorem dot_place (x : Vec3 ℝ) :
    d.dot (p.place x) = 1 * (unyawed p.rotation d).dot x + d.dot p.position := by
  rw [place, Vec3.dot_add, dot_yawed, one_mul]

end Placed

namespace DynamicObject

/-- Where a point of an object's shape is put: scaled, offset, pitched, yawed and moved, in this order. -/
def place {α : Type} [Scalar α] (o : DynamicObject α) (x : Vec3 α) : Vec3 α :=
  yawed o.rotation (pitched o.pitch (x * o.scale + o.center)) + o.position

/-- A direction of the world, as the object's shape sees it. -/
def unturned {α : Type} [Scalar α] (o : DynamicObject α) (d : Vec3 α) : Vec3 α :=
  unpitched o.pitch (unyawed o.rotation d)

/-- The points of an object. -/
def points (o : DynamicObject ℝ) : Set (Vec3 ℝ) := o.place '' o.type.shape.points

variable (o : DynamicObject ℝ) (d : Vec3 ℝ)

theorem support_eq : o.support d = o.place (o.type.shape.support (o.unturned d)) := by
  unfold DynamicObject.support place unturned yawed unyawed pitched unpitched
  cases o.rotation <;> cases o.pitch <;> rfl

theorem dot_place (x : Vec3 ℝ) :
    d.dot (o.place x) =
      o.scale * (o.unturned d).dot x + ((o.unturned d).dot o.center + d.dot o.position) := by
  rw [place, Vec3.dot_add, dot_yawed, dot_pitched, Vec3.dot_add, Vec3.mul_eq_smul, Vec3.dot_smul, add_assoc]
  rfl

/-- An object without any size is a single point, which is furthest along every direction. -/
theorem furthest_of_scale_eq_zero {o : DynamicObject ℝ} (hscale : o.scale = 0)
    (hpoints : o.type.shape.points.Nonempty) (d : Vec3 ℝ) : Furthest o.support o.points d := by
  have hsame (x y : Vec3 ℝ) : o.place x = o.place y := by
    simp only [place, hscale, Vec3.mul_eq_smul, zero_smul]
  obtain ⟨x, hx⟩ := hpoints
  constructor
  · rw [support_eq, hsame _ x]
    exact Set.mem_image_of_mem _ hx
  · rintro _ ⟨y, -, rfl⟩
    rw [support_eq, hsame y]

end DynamicObject

/-! ## §D Compositions -/

/-- A solid, a triangle of a mesh, or what is made of one by putting it in place, moving it on or
stretching it along a motion. -/
inductive Body where
  /-- A solid in its own frame. -/
  | shape (solid : Shape ℝ)
  /-- A triangle of a mesh. -/
  | triangle (t : Triangle ℝ)
  /-- A solid in its place. -/
  | placed (p : Placed ℝ)
  /-- An object. -/
  | object (o : DynamicObject ℝ)
  /-- A body moved on. -/
  | translated (inner : Body) (offset : Vec3 ℝ)
  /-- A body stretched along a motion. -/
  | stretched (inner : Body) (offset : Vec3 ℝ)

namespace Body

/-- The support function of a body. -/
noncomputable def support : Body → Support ℝ
  | .shape solid => solid.support
  | .triangle t => t.support
  | .placed p => p.support
  | .object o => o.support
  | .translated inner offset => Support.translate inner.support offset
  | .stretched inner offset => Support.stretch inner.support offset

/-- The points of a body. -/
def points : Body → Set (Vec3 ℝ)
  | .shape solid => solid.points
  | .triangle t => t.points
  | .placed p => p.points
  | .object o => o.points
  | .translated inner offset => (· + offset) '' inner.points
  | .stretched inner offset => stretchPoints inner.points offset

/-- No dimension and no scale inside is negative. -/
def WellFormed : Body → Prop
  | .shape solid => solid.WellFormed
  | .triangle _ => True
  | .placed p => p.shape.WellFormed
  | .object o => o.type.shape.WellFormed ∧ 0 ≤ o.scale
  | .translated inner _ => inner.WellFormed
  | .stretched inner _ => inner.WellFormed

/-- The solid inside finds its furthest point along the direction as it sees it, or it has no size. -/
def Resolves : Body → Vec3 ℝ → Prop
  | .shape solid, d => solid.Resolves d
  | .triangle _, _ => True
  | .placed p, d => p.shape.Resolves (unyawed p.rotation d)
  | .object o, d => o.scale = 0 ∨ o.type.shape.Resolves (o.unturned d)
  | .translated inner _, d => inner.Resolves d
  | .stretched inner _, d => inner.Resolves d

/-- How far along a direction the points of a set lie that is moved on. -/
theorem dot_translate (d offset p : Vec3 ℝ) : d.dot (p + offset) = 1 * d.dot p + d.dot offset := by
  rw [Vec3.dot_add, one_mul]

variable {body : Body}

theorem furthest_support (hwf : body.WellFormed) (d : Vec3 ℝ) (h : body.Resolves d) :
    Furthest body.support body.points d := by
  induction body with
  | shape solid => exact solid.furthest_support hwf h
  | triangle t => exact t.isSupport.furthest d
  | placed p => exact (p.shape.furthest_support hwf h).moved zero_le_one (p.dot_place d) (p.support_eq d)
  | object o =>
    rcases h with hscale | h
    · exact DynamicObject.furthest_of_scale_eq_zero hscale (Shape.points_nonempty hwf.1) d
    · exact (o.type.shape.furthest_support hwf.1 h).moved hwf.2 (o.dot_place d) (o.support_eq d)
  | translated inner offset ih =>
    exact (ih hwf h).moved zero_le_one (dot_translate d offset) rfl
  | stretched inner offset ih => exact (ih hwf h).stretch offset

theorem overshoots_support (hwf : body.WellFormed) (d : Vec3 ℝ) (h : ¬ body.Resolves d) :
    Overshoots body.support body.points d := by
  induction body with
  | shape solid => exact solid.overshoots_support h
  | triangle t => exact absurd trivial h
  | placed p => exact (p.shape.overshoots_support h).moved zero_lt_one (p.dot_place d) (p.support_eq d)
  | object o =>
    obtain ⟨hscale, h⟩ := not_or.mp h
    have hpos : 0 < o.scale := lt_of_le_of_ne hwf.2 (Ne.symm hscale)
    exact (o.type.shape.overshoots_support h).moved hpos (o.dot_place d) (o.support_eq d)
  | translated inner offset ih =>
    exact (ih hwf h).moved zero_lt_one (dot_translate d offset) rfl
  | stretched inner offset ih => exact (ih hwf h).stretch offset

/-- **Support functions are exact but for swings.** The support function of a well-formed body gives, for
a direction, a point of the body beyond which no point of the body lies, exactly when the solid inside
resolves the direction. Every solid but a swing resolves all directions. A swing with corners resolves
those along which some corner is marked above minus the largest finite number; along any other one the
search takes up no corner. -/
theorem furthest_support_iff (hwf : body.WellFormed) (d : Vec3 ℝ) :
    Furthest body.support body.points d ↔ body.Resolves d := by
  constructor
  · intro hfurthest
    by_contra h
    exact (overshoots_support hwf d h).not_furthest hfurthest
  · exact furthest_support hwf d

/-- A blade one unit long, lying along x. -/
noncomputable def blade : Swing ℝ := ⟨#v[0, ⟨1, 0, 0⟩, 0, 0], 2, 2⟩

/-- The blade, turned to lie along z, lifted by one and stretched along z by two. -/
noncomputable def raisedBlade : Body :=
  .stretched (.placed ⟨.swing blade, ⟨0, 1, 0⟩, some ⟨0, 1⟩⟩) ⟨0, 0, 2⟩

/-- The blade has a furthest point along z: its end has a mark of one. -/
theorem raisedBlade_furthest : raisedBlade.WellFormed ∧ raisedBlade.Resolves ⟨0, 0, 1⟩ ∧
    Furthest raisedBlade.support raisedBlade.points ⟨0, 0, 1⟩ := by
  have hwf : raisedBlade.WellFormed := by
    show decide (2 ≤ 4) = true
    decide
  have hend : (⟨1, 0, 0⟩ : Vec3 ℝ) ∈ blade.held := List.mem_cons_of_mem _ List.mem_cons_self
  have hresolves : raisedBlade.Resolves ⟨0, 0, 1⟩ := by
    refine .inr ⟨_, hend, ?_⟩
    have hpos := Scalar.maxFinite_pos
    simp only [unyawed, yawToLocal, Vec3.dot_def]
    linarith
  exact ⟨hwf, hresolves, (furthest_support_iff hwf _).mpr hresolves⟩

/-- A blade whose corners lie as far out along x as a number goes. -/
noncomputable def farBlade : Swing ℝ :=
  ⟨#v[⟨Scalar.maxFinite, 0, 0⟩, ⟨Scalar.maxFinite, 0, 0⟩, Vec3.zero, Vec3.zero], 2, 2⟩

/-- The blade comes about by adding its corners, and along the opposite direction its support function
gives the origin, which is beyond it. -/
theorem farBlade_not_furthest :
    Swing.empty.add ⟨Scalar.maxFinite, 0, 0⟩ ⟨Scalar.maxFinite, 0, 0⟩ = .ok farBlade ∧
    (Body.shape (.swing farBlade)).WellFormed ∧
    ¬ Furthest (Body.shape (.swing farBlade)).support (Body.shape (.swing farBlade)).points
      ⟨-1, 0, 0⟩ := by
  refine ⟨rfl, ?_, Overshoots.not_furthest (Swing.overshoots_support ?_)⟩
  · show decide (2 ≤ 4) = true
    decide
  · have hheld : farBlade.held = [⟨Scalar.maxFinite, 0, 0⟩, ⟨Scalar.maxFinite, 0, 0⟩] := rfl
    rintro (hnone | ⟨corner, hcorner, hmark⟩)
    · rw [hheld] at hnone
      cases hnone
    · have hfar : corner = ⟨Scalar.maxFinite, 0, 0⟩ := by
        rw [hheld] at hcorner
        simpa using hcorner
      rw [hfar, Vec3.dot_def] at hmark
      linarith

end Body

end ConvexCollision
