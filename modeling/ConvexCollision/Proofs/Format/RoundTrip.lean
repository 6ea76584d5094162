import ConvexCollision.CommandLine
import ConvexCollision.Proofs.Bounds
import ConvexCollision.Proofs.Format.Layers
import ConvexCollision.Proofs.Format.Record

/-!
# ConvexCollision.Proofs.Format.RoundTrip -- saved data loads back unchanged

What can be stored are finite numbers and counts that fit their machine words (`IsStorable`). Of every
value with such numbers, reading its document gives the value again, whatever fields may be left out when
one writes a document by hand: the writer leaves out none, so no default takes the place of a value. The
proofs go from the inside out, with one lemma for each kind of value, and a choice has a case for each of
its alternatives.
-/

namespace ConvexCollision

open Json

variable {α : Type}

/-! ## §A Values without numbers of the geometry -/

@[simp]
theorem EntityId.ofJson?_toJson (id : EntityId) : EntityId.ofJson? (id.toJson : Json α) = some id := by
  rw [EntityId.ofJson?, EntityId.toJson, uint32?_ofNat]
  rfl

@[simp]
theorem Layers.ofJson?_toJson (l : Layers) : Layers.ofJson? (l.toJson : Json α) = some l :=
  l.ofText?_text

@[simp]
theorem Surface.ofJson?_toJson (s : Surface) : Surface.ofJson? (s.toJson : Json α) = some s :=
  named?_ofNamed (by decide) (by cases s <;> decide)

@[simp]
theorem TriggerType.ofJson?_toJson (t : TriggerType) :
    TriggerType.ofJson? (t.toJson : Json α) = some t :=
  named?_ofNamed (by decide) (by cases t <;> decide)

@[simp]
theorem Density.ofJson?_toJson (d : Density) : Density.ofJson? (d.toJson : Json α) = some d :=
  named?_ofNamed (by decide) (by cases d <;> decide)

@[simp]
theorem Weight.ofJson?_toJson (w : Weight) : Weight.ofJson? (w.toJson : Json α) = some w :=
  named?_ofNamed (by decide) (by cases w <;> decide)

theorem KdNode.ofJson?_toJson (node : KdNode) : KdNode.ofJson? (node.toJson : Json α) = some node := by
  cases node with
  | leaf offset count =>
    rw [KdNode.toJson, KdNode.ofJson?, tagged?_ofTagged (by simp [wordJson, ofNat, isReadable]) (by simp)]
    simp [Record.ofJson?_obj, wordJson]
  | branch axis aMax bMin aChild bChild =>
    rw [KdNode.toJson, KdNode.ofJson?, tagged?_ofTagged (by simp [wordJson, ofNat, isReadable]) (by simp)]
    simp [Record.ofJson?_obj, wordJson]

theorem MeshTriangle.ofJson?_toJson (t : MeshTriangle) :
    MeshTriangle.ofJson? (t.toJson : Json α) = some t := by
  have hindices : indicesOf? (ofList wordJson (Corner.all.map t.index) : Json α) = some t.indices := by
    show indicesOf? (.arr [wordJson t.indices.1, wordJson t.indices.2.1, wordJson t.indices.2.2]) = _
    simp [indicesOf?, wordJson]
  simp [MeshTriangle.ofJson?, MeshTriangle.toJson, Record.ofJson?_obj, hindices]

theorem Swing.slotsOf?_toList (slots : Vector (Vec3 α) 4) : slotsOf? slots.toList = some slots := by
  obtain ⟨⟨corners⟩, hsize⟩ := slots
  match corners, hsize with
  | [a, b, c, d], _ => rfl

variable [Scalar α]

/-! ## §B Vectors and boxes -/

theorem Vec2.ofJson?_toJson {v : Vec2 α} (hx : Scalar.isFinite v.x = true)
    (hy : Scalar.isFinite v.y = true) : Vec2.ofJson? v.toJson = some v := by
  simp [Vec2.ofJson?, Vec2.toJson, scalar?_ofScalar hx, scalar?_ofScalar hy]

theorem Vec3.ofJson?_toJson {v : Vec3 α} (h : v.IsFinite) : Vec3.ofJson? v.toJson = some v := by
  have hx : (ofScalar v.x).scalar? = some v.x := scalar?_ofScalar (h .x)
  have hy : (ofScalar v.y).scalar? = some v.y := scalar?_ofScalar (h .y)
  have hz : (ofScalar v.z).scalar? = some v.z := scalar?_ofScalar (h .z)
  simp [Vec3.ofJson?, Vec3.toJson, hx, hy, hz]

@[simp]
theorem Vec2.isReadable_toJson (v : Vec2 α) : v.toJson.isReadable = true := by simp [Vec2.toJson]

@[simp]
theorem Vec3.isReadable_toJson (v : Vec3 α) : v.toJson.isReadable = true := by simp [Vec3.toJson]

theorem Bounds.ofJson?_toJson {b : Bounds α} (h : b.IsFinite) : Bounds.ofJson? b.toJson = some b := by
  simp [Bounds.ofJson?, Bounds.toJson, Record.ofJson?_obj, Vec3.ofJson?_toJson h.mins,
    Vec3.ofJson?_toJson h.maxs]

/-! ## §C Solids -/

/-- The numbers of a swing can be stored. -/
structure Swing.IsStorable (s : Swing α) : Prop where
  /-- The corners are finite, those not in use as well. -/
  slots : ∀ v ∈ s.slots.toList, v.IsFinite
  /-- The place of the next corners fits 64 bits. -/
  nextCorner : s.nextCorner < UInt64.size
  /-- The count fits 64 bits. -/
  dataCount : s.dataCount < UInt64.size

theorem Swing.ofJson?_fields {s : Swing α} (h : s.IsStorable) : Swing.ofJson? (.obj s.fields) = some s := by
  have hslots : listOf? Vec3.ofJson? (ofList Vec3.toJson s.slots.toList) = some s.slots.toList :=
    listOf?_ofList fun v hv => Vec3.ofJson?_toJson (h.slots v hv)
  have hnext : (Json.ofNat s.nextCorner : Json α).count? = some s.nextCorner := natBelow?_ofNat h.nextCorner
  have hcount : (Json.ofNat s.dataCount : Json α).count? = some s.dataCount := natBelow?_ofNat h.dataCount
  simp [Swing.ofJson?, Swing.fields, Record.ofJson?_obj, hslots, Swing.slotsOf?_toList, hnext, hcount]

/-- The numbers of a solid can be stored. -/
def Shape.IsStorable : Shape α → Prop
  | box halfSize => halfSize.IsFinite
  | sphere radius => Scalar.isFinite radius = true
  | capsule radius innerHalfHeight =>
    Scalar.isFinite radius = true ∧ Scalar.isFinite innerHalfHeight = true
  | cylinder radius halfHeight => Scalar.isFinite radius = true ∧ Scalar.isFinite halfHeight = true
  | cylinderHorz radius halfHeight => Scalar.isFinite radius = true ∧ Scalar.isFinite halfHeight = true
  | cone size => size.IsFinite
  | sweep range radius halfHeight =>
    (Scalar.isFinite range.x = true ∧ Scalar.isFinite range.y = true) ∧ Scalar.isFinite radius = true ∧
      Scalar.isFinite halfHeight = true
  | swing s => s.IsStorable

/-- A solid of any kind is read back. -/
theorem Shape.ofJson?_toJson {shape : Shape α} (h : shape.IsStorable) :
    Shape.ofJson? shape.toJson = some shape := by
  cases shape with
  | box halfSize =>
    rw [Shape.toJson, Shape.ofJson?, tagged?_ofTagged (by simp) (by simp)]
    simp [Record.ofJson?_obj, Vec3.ofJson?_toJson h]
  | sphere radius =>
    rw [Shape.toJson, Shape.ofJson?, tagged?_ofTagged (by simp) (by simp)]
    simp [Record.ofJson?_obj, scalar?_ofScalar h]
  | capsule radius innerHalfHeight =>
    rw [Shape.toJson, Shape.ofJson?, tagged?_ofTagged (by simp) (by simp)]
    simp [Record.ofJson?_obj, scalar?_ofScalar h.1, scalar?_ofScalar h.2]
  | cylinder radius halfHeight =>
    rw [Shape.toJson, Shape.ofJson?, tagged?_ofTagged (by simp) (by simp)]
    simp [Record.ofJson?_obj, scalar?_ofScalar h.1, scalar?_ofScalar h.2]
  | cylinderHorz radius halfHeight =>
    rw [Shape.toJson, Shape.ofJson?, tagged?_ofTagged (by simp) (by simp)]
    simp [Record.ofJson?_obj, scalar?_ofScalar h.1, scalar?_ofScalar h.2]
  | cone size =>
    rw [Shape.toJson, Shape.ofJson?, tagged?_ofTagged (by simp) (by simp)]
    simp [Record.ofJson?_obj, Vec3.ofJson?_toJson h]
  | sweep range radius halfHeight =>
    obtain ⟨⟨hx, hy⟩, hradius, hheight⟩ := h
    rw [Shape.toJson, Shape.ofJson?, tagged?_ofTagged (by simp) (by simp)]
    simp [Record.ofJson?_obj, Vec2.ofJson?_toJson hx hy, scalar?_ofScalar hradius,
      scalar?_ofScalar hheight]
  | swing s =>
    have hreadable : ∀ f ∈ s.fields, f.2.isReadable = true := by
      simp only [Swing.fields, List.forall_mem_cons]
      exact ⟨by simp [ofList], rfl, rfl, fun f hf => nomatch hf⟩
    rw [Shape.toJson, Shape.ofJson?, tagged?_ofTagged hreadable (by simp [Swing.fields])]
    simp [Swing.ofJson?_fields h]

/-- A volume is read back. -/
theorem TriggerShape.ofJson?_toJson {shape : TriggerShape α} (h : shape.solid.IsStorable) :
    TriggerShape.ofJson? shape.toJson = some shape := by
  rw [TriggerShape.ofJson?, TriggerShape.toJson, Shape.ofJson?_toJson h]
  cases shape <;> rfl

/-- The numbers of a type can be stored. -/
structure ObjectType.IsStorable (t : ObjectType α) : Prop where
  /-- Those of the solid. -/
  shape : t.shape.IsStorable
  /-- The part of the speed that is thrown back. -/
  bounce : Scalar.isFinite t.bounce = true
  /-- The part of the speed that is lost. -/
  friction : Scalar.isFinite t.friction = true
  /-- The steepest slope. -/
  maxStableSlope : Scalar.isFinite t.maxStableSlope = true

theorem ObjectType.ofJson?_toJson {t : ObjectType α} (h : t.IsStorable) :
    ObjectType.ofJson? t.toJson = some t := by
  simp [ObjectType.ofJson?, ObjectType.toJson, Record.ofJson?_obj, Shape.ofJson?_toJson h.shape,
    scalar?_ofScalar h.bounce, scalar?_ofScalar h.friction, scalar?_ofScalar h.maxStableSlope]

/-! ## §D Meshes -/

/-- The numbers of a tree are finite. -/
structure KdTree.IsStorable (t : KdTree α) : Prop where
  /-- Those of its box. -/
  bounds : t.grid.bounds.IsFinite
  /-- Those of its cells. -/
  sizeInv : t.grid.sizeInv.IsFinite

theorem KdTree.ofJson?_toJson {t : KdTree α} (h : t.IsStorable) : KdTree.ofJson? t.toJson = some t := by
  have hnodes : listOf? KdNode.ofJson? (ofList KdNode.toJson t.nodes.toList : Json α) = some t.nodes.toList :=
    listOf?_ofList fun node _ => node.ofJson?_toJson
  simp [KdTree.ofJson?, KdTree.toJson, Record.ofJson?_obj, Bounds.ofJson?_toJson h.bounds,
    Vec3.ofJson?_toJson h.sizeInv, hnodes]

/-- The numbers of a mesh are finite. -/
structure MeshData.IsStorable (m : MeshData α) : Prop where
  /-- Those of its vertices. -/
  vertices : ∀ v ∈ m.vertices.toList, v.IsFinite
  /-- Those of its tree. -/
  tree : m.tree.IsStorable

theorem MeshData.ofJson?_toJson {m : MeshData α} (h : m.IsStorable) :
    MeshData.ofJson? m.toJson = some m := by
  have hvertices : listOf? Vec3.ofJson? (ofList Vec3.toJson m.vertices.toList) = some m.vertices.toList :=
    listOf?_ofList fun v hv => Vec3.ofJson?_toJson (h.vertices v hv)
  have htriangles : listOf? MeshTriangle.ofJson? (ofList MeshTriangle.toJson m.triangles.toList : Json α) =
      some m.triangles.toList := listOf?_ofList fun t _ => t.ofJson?_toJson
  simp [MeshData.ofJson?, MeshData.toJson, Record.ofJson?_obj, hvertices, htriangles,
    KdTree.ofJson?_toJson h.tree]

/-- A mesh that validation accepts is accepted again. -/
theorem Mesh.ofJson_toJson {m : Mesh α} (h : m.data.IsStorable) : Mesh.ofJson m.data.toJson = .ok m := by
  rw [Mesh.ofJson, MeshData.ofJson?_toJson h]
  show Mesh.ofData m.data = .ok m
  unfold Mesh.ofData
  split
  · rfl
  · next heq =>
    rw [m.isValid] at heq
    cases heq

/-! ## §E Scenes -/

/-- The numbers of the tunables can be stored. -/
structure Config.IsStorable (c : Config α) : Prop where
  /-- The length of a tick is finite. -/
  fixedTimeStep : Scalar.isFinite c.fixedTimeStep = true
  /-- Gravity is finite. -/
  gravity : Scalar.isFinite c.gravity = true
  /-- The capacity fits 64 bits. -/
  contactPoolCapacity : c.contactPoolCapacity < UInt64.size
  /-- The number of hits fits 32 bits. -/
  maxSweptIterations : c.maxSweptIterations < UInt32.size
  /-- The cone is finite. -/
  groundSnapConeDegrees : Scalar.isFinite c.groundSnapConeDegrees = true
  /-- The tolerance is finite. -/
  shadowGroundTolerance : Scalar.isFinite c.shadowGroundTolerance = true
  /-- The lift is finite. -/
  maxWaterLiftSpeed : Scalar.isFinite c.maxWaterLiftSpeed = true
  /-- The margin is finite. -/
  killPlaneMargin : Scalar.isFinite c.killPlaneMargin = true

theorem Config.ofJson?_toJson {c : Config α} (h : c.IsStorable) : Config.ofJson? c.toJson = some c := by
  have hcapacity : (Json.ofNat c.contactPoolCapacity : Json α).count? = some c.contactPoolCapacity :=
    natBelow?_ofNat h.contactPoolCapacity
  have hiterations : count32? (Json.ofNat c.maxSweptIterations : Json α) = some c.maxSweptIterations :=
    natBelow?_ofNat h.maxSweptIterations
  simp [Config.ofJson?, Config.toJson, Record.ofJson?_obj, hcapacity, hiterations,
    scalar?_ofScalar h.fixedTimeStep, scalar?_ofScalar h.gravity, scalar?_ofScalar h.groundSnapConeDegrees,
    scalar?_ofScalar h.shadowGroundTolerance, scalar?_ofScalar h.maxWaterLiftSpeed,
    scalar?_ofScalar h.killPlaneMargin]

/-- The numbers of a planned object can be stored. -/
structure ObjectPlan.IsStorable (p : ObjectPlan α) : Prop where
  /-- Those of its type. -/
  type : p.type.IsStorable
  /-- Where it starts. -/
  position : p.position.IsFinite
  /-- Its first velocity. -/
  velocity : p.velocity.IsFinite
  /-- Its yaw. -/
  yaw : Scalar.isFinite p.yaw = true

theorem ObjectPlan.ofJson?_toJson {p : ObjectPlan α} (h : p.IsStorable) :
    ObjectPlan.ofJson? p.toJson = some p := by
  simp [ObjectPlan.ofJson?, ObjectPlan.toJson, Record.ofJson?_obj, ObjectType.ofJson?_toJson h.type,
    Vec3.ofJson?_toJson h.position, Vec3.ofJson?_toJson h.velocity, scalar?_ofScalar h.yaw, Json.bool?]

/-- The numbers of a planned trigger can be stored. -/
structure TriggerPlan.IsStorable (p : TriggerPlan α) : Prop where
  /-- Those of its volume. -/
  shape : p.shape.solid.IsStorable
  /-- Where it is. -/
  position : p.position.IsFinite
  /-- Its yaw. -/
  yaw : Scalar.isFinite p.yaw = true

theorem TriggerPlan.ofJson?_toJson {p : TriggerPlan α} (h : p.IsStorable) :
    TriggerPlan.ofJson? p.toJson = some p := by
  simp [TriggerPlan.ofJson?, TriggerPlan.toJson, Record.ofJson?_obj, TriggerShape.ofJson?_toJson h.shape,
    Vec3.ofJson?_toJson h.position, scalar?_ofScalar h.yaw]

/-- The numbers of a scene can be stored. -/
structure Scene.IsStorable (s : Scene α) : Prop where
  /-- Those of the tunables. -/
  config : s.config.IsStorable
  /-- Those of every mesh. -/
  meshes : ∀ m ∈ s.meshes, m.IsStorable
  /-- Those of every planned object. -/
  objects : ∀ p ∈ s.objects, p.IsStorable
  /-- Those of every planned trigger. -/
  triggers : ∀ p ∈ s.triggers, p.IsStorable

theorem Scene.ofJson?_toJson {s : Scene α} (h : s.IsStorable) : Scene.ofJson? s.toJson = some s := by
  have hmeshes : listOf? MeshData.ofJson? (ofList MeshData.toJson s.meshes) = some s.meshes :=
    listOf?_ofList fun m hm => MeshData.ofJson?_toJson (h.meshes m hm)
  have hobjects : listOf? ObjectPlan.ofJson? (ofList ObjectPlan.toJson s.objects) = some s.objects :=
    listOf?_ofList fun p hp => ObjectPlan.ofJson?_toJson (h.objects p hp)
  have htriggers : listOf? TriggerPlan.ofJson? (ofList TriggerPlan.toJson s.triggers) = some s.triggers :=
    listOf?_ofList fun p hp => TriggerPlan.ofJson?_toJson (h.triggers p hp)
  simp [Scene.ofJson?, Scene.toJson, Record.ofJson?_obj, Config.ofJson?_toJson h.config, hmeshes, hobjects,
    htriggers]

/-! ## §F What is loaded -/

/-- The characters of a text are cut into words, and these make the document. -/
theorem Json.ofText?_ofList (cs : List Char) :
    ofText? (String.ofList cs) = (Token.scan [] cs.length cs).bind fun words =>
      match readValue deepest (2 * words.length + 2) words with
      | some (value, []) => some value
      | _ => none := by
  show (Token.scan [] (String.ofList cs).toList.length (String.ofList cs).toList).bind _ = _
  rewrite [String.toList_ofList]
  rfl

/-- **Saved data loads back unchanged.** A mesh whose tables fit together is read from its document, and
from every text that writes this document, as the mesh that it was; so are tunables, types of objects with
any solid and scenes, when their numbers can be stored. A set of layers is read from its text whatever its
bits. -/
theorem saved_loads_back :
    (∀ m : Mesh Float32, m.data.IsStorable →
      Mesh.ofJson m.data.toJson = .ok m ∧
      ∀ text, Json.ofText? text = some m.data.toJson →
        (fileValue some (some text)).bind Mesh.ofJson = .ok m) ∧
    (∀ c : Config Float32, c.IsStorable → Config.ofJson? c.toJson = some c) ∧
    (∀ t : ObjectType Float32, t.IsStorable → ObjectType.ofJson? t.toJson = some t) ∧
    (∀ s : Scene Float32, s.IsStorable → Scene.ofJson? s.toJson = some s) ∧
    ∀ l : Layers, Layers.ofText? l.text = some l := by
  refine ⟨fun m hm => ⟨Mesh.ofJson_toJson hm, fun text htext => ?_⟩, fun c => Config.ofJson?_toJson,
    fun t => ObjectType.ofJson?_toJson, fun s => Scene.ofJson?_toJson, Layers.ofText?_text⟩
  have hdocument : fileValue some (some text) = .ok m.data.toJson := by
    rw [fileValue, htext]
    rfl
  rw [hdocument]
  exact Mesh.ofJson_toJson hm

/-- A step of one triangle, on a layer with a name and one without. -/
def stepMesh : Mesh Float32 where
  data := {
    vertices := #[⟨0, 1, 0⟩, ⟨0, 1, 1⟩, ⟨1, 1, 0⟩]
    triangles := #[{ indices := (0, 1, 2), surface := .sticky, layers := ⟨65⟩ }]
    tree := {
      grid := { bounds := ⟨⟨0, 1, 0⟩, ⟨1, 1, 1⟩⟩, sizeInv := ⟨65535, 0, 65535⟩ }
      nodes := #[.leaf 0 1] } }
  isValid := by
    show KdTree.checkAll #[.leaf 0 1] 1 [(0, 0)] = .ok ()
    simp [KdTree.checkAll, KdTree.checkNode, KdTree.maxDepth]

/-- The text of its file. -/
def stepText : String := .ofList <|
  "\x7b\"vertices\":[[0.0,1.0,0.0],[0.0,1.0,1.0],[1.0,1.0,0.0]],\"triangles\":[\x7b\"indices\":".toList ++
  "[0,1,2],\"surface_type\":\"sticky\",\"collision_layers\":\"TANGIBLE | 0x40\",".toList ++
  "\"filtered_edges\":0\x7d],\"kd_tree\":\x7b\"bounds\":\x7b\"mins\":[0.0,1.0,0.0],".toList ++
  "\"maxs\":[1.0,1.0,1.0]\x7d,\"size_inv\":[65535.0,0.0,65535.0],\"nodes\":[\x7b\"type\":".toList ++
  "\"leaf\",\"triangle_offset\":0,\"triangle_count\":1\x7d]\x7d\x7d".toList

/-- The text writes the document of the mesh. -/
theorem ofText?_stepText : Json.ofText? stepText = some stepMesh.data.toJson := by
  have hsame : (Json.ofText? stepText).any (Json.same stepMesh.data.toJson) = true := by
    unfold stepText
    -- the pieces are lists of characters as they stand; to decode their bytes is slow to check
    rw [Json.ofText?_ofList, String.toList_ofList, String.toList_ofList, String.toList_ofList,
      String.toList_ofList, String.toList_ofList]
    decide +kernel
  obtain ⟨j, hj, h⟩ := (Option.any_eq_true _ _).mp hsame
  rw [hj, eq_of_same h]

/-- A blade halfway through a swing. -/
def blade : ObjectType Float32 where
  shape := .swing ⟨#v[⟨0, 1, 0⟩, ⟨2, 1, 0⟩, ⟨0, 1, 1⟩, ⟨1, 1, 2⟩], 2, 4⟩
  bounce := 0
  friction := 0.5
  maxStableSlope := 0.25

/-- A blade over the step, on layers without names, and a room around them. -/
def bladeScene : Scene Float32 where
  config := Config.standard
  meshes := [stepMesh.data]
  objects := [⟨⟨7⟩, blade, ⟨0, 3, 0⟩, ⟨0, -1, 0⟩, 90, ⟨0xff00⟩, false, .overlap, .superHeavy, .light⟩]
  triggers := [⟨⟨8⟩, .box ⟨5, 5, 5⟩, ⟨0, 0, 0⟩, 0, ⟨0⟩⟩]

/-- The blade, the step and the scene of both load back. -/
theorem bladeScene_loads_back :
    (fileValue some (some stepText)).bind Mesh.ofJson = .ok stepMesh ∧
    ObjectType.ofJson? blade.toJson = some blade ∧
    Config.ofJson? bladeScene.config.toJson = some bladeScene.config ∧
    Scene.ofJson? bladeScene.toJson = some bladeScene := by
  have hstep : stepMesh.data.IsStorable := by
    have hvertices : ∀ v ∈ stepMesh.data.vertices.toList, v.IsFinite := by decide +kernel
    have hmins : stepMesh.data.bounds.mins.IsFinite := by decide +kernel
    have hmaxs : stepMesh.data.bounds.maxs.IsFinite := by decide +kernel
    have hsizeInv : stepMesh.data.tree.grid.sizeInv.IsFinite := by decide +kernel
    exact ⟨hvertices, ⟨hmins, hmaxs⟩, hsizeInv⟩
  have hblade : blade.IsStorable := by
    have hcorners : ∀ v ∈ [(⟨0, 1, 0⟩ : Vec3 Float32), ⟨2, 1, 0⟩, ⟨0, 1, 1⟩, ⟨1, 1, 2⟩], v.IsFinite := by
      decide +kernel
    exact ⟨⟨hcorners, by decide, by decide⟩, by decide +kernel, by decide +kernel, by decide +kernel⟩
  have hconfig : bladeScene.config.IsStorable :=
    ⟨by decide +kernel, by decide +kernel, by decide, by decide, by decide +kernel, by decide +kernel,
      by decide +kernel, by decide +kernel⟩
  have hplan : ∀ p ∈ bladeScene.objects, p.IsStorable := by
    intro p hp
    rw [List.mem_singleton.mp hp]
    exact ⟨hblade, by decide +kernel, by decide +kernel, by decide +kernel⟩
  have hroom : ∀ p ∈ bladeScene.triggers, p.IsStorable := by
    intro p hp
    rw [List.mem_singleton.mp hp]
    have hbox : (⟨5, 5, 5⟩ : Vec3 Float32).IsFinite := by decide +kernel
    exact ⟨hbox, by decide +kernel, by decide +kernel⟩
  have hmeshes : ∀ m ∈ bladeScene.meshes, m.IsStorable := by
    intro m hm
    rw [List.mem_singleton.mp hm]
    exact hstep
  obtain ⟨hmesh, hloadsConfig, htype, hscene, -⟩ := saved_loads_back
  exact ⟨(hmesh stepMesh hstep).2 stepText ofText?_stepText, htype blade hblade,
    hloadsConfig bladeScene.config hconfig, hscene bladeScene ⟨hconfig, hmeshes, hplan, hroom⟩⟩

end ConvexCollision
