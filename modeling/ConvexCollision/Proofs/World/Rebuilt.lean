import ConvexCollision.CommandLine
import ConvexCollision.Proofs.Except
import ConvexCollision.Proofs.Format.RoundTrip
import ConvexCollision.Proofs.World.Registry

/-!
# ConvexCollision.Proofs.World.Rebuilt -- other tunables for a world that was built

A world that a scene describes is put together from its tunables, a list of meshes and a list of elements
(`World.assemble`, `Scene.exists_build_eq_assemble`), and so is the demonstration. The two lists can be read
off the world again. An element that was taken in comes back with its box up to date and without contacts,
and taking it in once more changes nothing (`Element.entered_entered`). The tunables have a part in three
fields alone: themselves, the pool and the kill plane. `World.reconfigured` sets these three, and each step
of putting a world together commutes with it.

So it makes no difference whether a world is built under some tunables, or under others and is then rebuilt
(`withConfig_of_assemble`), and neither does it to a run that is given both files.
-/

namespace ConvexCollision

variable {α : Type} [Scalar α]

namespace BuildFailure

/-- A build goes on after a registration that was not refused, with the world that it leaves. -/
theorem ofRegistration_eq_ok {r : Except CollisionError Unit × World α} {w : World α}
    (h : ofRegistration r = .ok w) : r = (.ok (), w) := by
  obtain ⟨result, w'⟩ := r
  cases result with
  | error e => cases h
  | ok _ => exact congrArg _ (Except.ok.inj h)

/-- What is done to the world that is left is done to the one that a build goes on with. -/
theorem ofRegistration_map (f : World α → World α) (r : Except CollisionError Unit × World α) :
    ofRegistration (r.1, f r.2) = (ofRegistration r).map f := by
  obtain ⟨result, w⟩ := r
  cases result <;> rfl

theorem ofFault_eq_ok {β : Type} {x : Except Fault β} {b : β} (h : ofFault x = .ok b) : x = .ok b := by
  cases x with
  | error f => cases h
  | ok c => exact congrArg Except.ok (Except.ok.inj h)

end BuildFailure

/-! ## §A Putting a world together -/

namespace Element

/-- What was taken in is taken in as it is. -/
theorem entered_entered (e : Element α) : e.entered.entered = e.entered := by
  cases e <;> rfl

/-- Objects before triggers, as a build takes them. -/
def inOrder (os : List (DynamicObject α)) (ts : List (SpatialTrigger α)) : List (Element α) :=
  os.map object ++ ts.map trigger

variable (os : List (DynamicObject α)) (ts : List (SpatialTrigger α))

theorem inOrder_map_entered :
    (inOrder os ts).map entered =
      inOrder (os.map DynamicObject.entered) (ts.map SpatialTrigger.entered) := by
  unfold inOrder
  simp only [List.map_append, List.map_map]
  rfl

omit [Scalar α] in
theorem filterMap_object_inOrder : (inOrder os ts).filterMap object? = os := by
  unfold inOrder
  rw [List.filterMap_append, List.filterMap_map, List.filterMap_map]
  have hobjects : os.filterMap (object? ∘ object) = os := List.filterMap_some
  have htriggers : ts.filterMap (object? ∘ trigger) = [] := List.filterMap_none ts
  rw [hobjects, htriggers, List.append_nil]

omit [Scalar α] in
theorem filterMap_trigger_inOrder : (inOrder os ts).filterMap trigger? = ts := by
  unfold inOrder
  rw [List.filterMap_append, List.filterMap_map, List.filterMap_map]
  have hobjects : os.filterMap (trigger? ∘ object) = [] := List.filterMap_none os
  have htriggers : ts.filterMap (trigger? ∘ trigger) = ts := List.filterMap_some
  rw [hobjects, htriggers, List.nil_append]

end Element

namespace World

variable {w w' : World α}

/-- The world with some elements added, in order. -/
def addAll (w : World α) (es : List (Element α)) : Except BuildFailure (World α) :=
  es.foldlM (fun w e => BuildFailure.ofRegistration (w.addElement e.entered)) w

theorem addObjects_eq_addAll (w : World α) (os : List (DynamicObject α)) :
    w.addObjects os = w.addAll (os.map .object) := by
  unfold addObjects addAll
  rw [List.foldlM_map]
  rfl

theorem addTriggers_eq_addAll (w : World α) (ts : List (SpatialTrigger α)) :
    w.addTriggers ts = w.addAll (ts.map .trigger) := by
  unfold addTriggers addAll
  rw [List.foldlM_map]
  rfl

theorem addAll_inOrder (w : World α) (os : List (DynamicObject α)) (ts : List (SpatialTrigger α)) :
    w.addAll (Element.inOrder os ts) = w.addObjects os >>= (·.addTriggers ts) := by
  simp only [addObjects_eq_addAll, addTriggers_eq_addAll]
  exact List.foldlM_append

/-- The world of some meshes and elements under some tunables. -/
def assemble (config : Config α) (ms : List (Mesh α)) (es : List (Element α)) :
    Except BuildFailure (World α) := do
  let withMeshes ← (new config).addMeshes ms
  withMeshes.addAll es

theorem withConfig_eq_assemble (w : World α) (config : Config α) :
    w.withConfig config = assemble config w.staticMeshes (Element.inOrder w.objects w.triggers) := by
  unfold withConfig assemble
  simp only [addAll_inOrder]

/-- It makes no difference whether elements are taken in for the first time. -/
theorem assemble_entered (config : Config α) (ms : List (Mesh α)) (es : List (Element α)) :
    assemble config ms (es.map Element.entered) = assemble config ms es := by
  unfold assemble addAll
  simp only [List.foldlM_map, Element.entered_entered]

/-! ## §B What was taken in -/

/-- Adding elements puts them behind the others, as they are taken in. -/
theorem addAll_eq_ok {es : List (Element α)} (h : w.addAll es = .ok w') :
    w'.staticMeshes = w.staticMeshes ∧
      w'.elements.toList = w.elements.toList ++ es.map Element.entered := by
  refine inv_foldlM_passed (fun passed (w' : World α) => w'.staticMeshes = w.staticMeshes ∧
    w'.elements.toList = w.elements.toList ++ passed.map Element.entered) ?_ ⟨rfl, by simp⟩ h
  intro passed e rest w₁ w₂ _ ⟨hmeshes, helements⟩ hadd
  have hadd := BuildFailure.ofRegistration_eq_ok hadd
  rcases w₁.addElement_cases e.entered with hadded | ⟨error, hrefused⟩
  · cases hadd.symm.trans hadded
    exact ⟨hmeshes, by simp [withElement, helements]⟩
  · cases hadd.symm.trans hrefused

/-- Adding meshes puts them behind the others. -/
theorem addMeshes_eq_ok {ms : List (Mesh α)} (h : w.addMeshes ms = .ok w') :
    w'.staticMeshes = w.staticMeshes ++ ms ∧ w'.elements = w.elements := by
  refine inv_foldlM_passed (fun passed (w' : World α) => w'.staticMeshes = w.staticMeshes ++ passed ∧
    w'.elements = w.elements) ?_ ⟨(List.append_nil _).symm, rfl⟩ h
  intro passed m rest w₁ w₂ _ ⟨hmeshes, helements⟩ hadd
  obtain ⟨⟨w₃, handle⟩, hmesh, rfl⟩ := map_eq_ok_iff.mp (BuildFailure.ofFault_eq_ok hadd)
  show w₃.staticMeshes = _ ∧ w₃.elements = _
  rw [addMesh_eq_ok hmesh, ← List.append_assoc, ← hmeshes]
  exact ⟨List.map_append, helements⟩

/-- What a world was put together from stands in it. -/
theorem assemble_eq_ok {config : Config α} {ms : List (Mesh α)} {es : List (Element α)}
    (h : assemble config ms es = .ok w) :
    w.staticMeshes = ms ∧ w.elements.toList = es.map Element.entered := by
  obtain ⟨w₁, hmeshes, hall⟩ := bind_eq_ok_iff.mp h
  obtain ⟨hstatic, helements⟩ := addMeshes_eq_ok hmeshes
  obtain ⟨hstatic', helements'⟩ := addAll_eq_ok hall
  rw [helements] at helements'
  exact ⟨hstatic'.trans hstatic, helements'⟩

/-- A world that was put together in the order of a build is rebuilt from the same meshes and elements. -/
theorem withConfig_of_assemble {config : Config α} {ms : List (Mesh α)} {os : List (DynamicObject α)}
    {ts : List (SpatialTrigger α)} (h : assemble config ms (Element.inOrder os ts) = .ok w)
    (config' : Config α) :
    w.withConfig config' = assemble config' ms (Element.inOrder os ts) := by
  obtain ⟨hmeshes, helements⟩ := assemble_eq_ok h
  rw [Element.inOrder_map_entered] at helements
  have hobjects : w.objects = os.map DynamicObject.entered := by
    unfold objects
    rw [helements, Element.filterMap_object_inOrder]
  have htriggers : w.triggers = ts.map SpatialTrigger.entered := by
    unfold triggers
    rw [helements, Element.filterMap_trigger_inOrder]
  rw [withConfig_eq_assemble, hmeshes, hobjects, htriggers, ← Element.inOrder_map_entered,
    assemble_entered]

/-! ## §C Other tunables -/

/-- The world under other tunables: its contacts are fresh, and the kill plane is where these put it. -/
def reconfigured (w : World α) (config : Config α) : World α :=
  { w with
    config
    pool := ContactPool.ofCapacity config.contactPoolCapacity
    killPlane := (lowestPoint? w.staticMeshes).map (· - config.killPlaneMargin) }

theorem addElement_reconfigured (config : Config α) (w : World α) (e : Element α) :
    (w.reconfigured config).addElement e =
      ((w.addElement e).1, (w.addElement e).2.reconfigured config) := by
  unfold addElement
  show (if _ then _ else if w.registry.contains e.id = true then _ else _) = _
  split
  · rfl
  split <;> rfl

theorem addAll_reconfigured (config : Config α) (w : World α) (es : List (Element α)) :
    (w.reconfigured config).addAll es = (w.addAll es).map (·.reconfigured config) := by
  refine foldlM_map_state (·.reconfigured config) ?_ es w
  intro w e
  rw [addElement_reconfigured]
  exact BuildFailure.ofRegistration_map (·.reconfigured config) _

theorem addMeshes_reconfigured (config : Config α) (w : World α) (ms : List (Mesh α)) :
    (w.reconfigured config).addMeshes ms = (w.addMeshes ms).map (·.reconfigured config) := by
  refine foldlM_map_state (·.reconfigured config) ?_ ms w
  intro w m
  unfold addMesh
  show BuildFailure.ofFault (Except.map _ (if w.meshes.length < maxStaticMeshes then _ else _)) = _
  split <;> rfl

/-- What was put together under some tunables is put together in the same way under others. -/
theorem assemble_reconfigured {config : Config α} {ms : List (Mesh α)} {es : List (Element α)}
    (h : assemble config ms es = .ok w) (config' : Config α) :
    assemble config' ms es = .ok (w.reconfigured config') := by
  obtain ⟨w₁, hmeshes, hall⟩ := bind_eq_ok_iff.mp h
  -- an empty world is the same under any tunables, once these have their part in it
  have hmeshes' := addMeshes_reconfigured config' (new config) ms
  have hall' := addAll_reconfigured config' w₁ es
  rw [hmeshes] at hmeshes'
  rw [hall] at hall'
  unfold assemble
  show ((new config).reconfigured config').addMeshes ms >>= _ = _
  rw [hmeshes']
  exact hall'

/-- Rebuilding a world makes it what is made under the other tunables. Only the tunables, the pool and the
kill plane are other than they were. -/
structure RebuiltAs (w : World α) (make : Config α → Except BuildFailure (World α)) : Prop where
  /-- It is the world that is made under the other tunables. -/
  same (config : Config α) : w.withConfig config = make config
  /-- It is what it was, under these. -/
  changed (config : Config α) : w.withConfig config = .ok (w.reconfigured config)

/-- A world that is put together from the same meshes and elements under any tunables is rebuilt as made. -/
theorem rebuiltAs_of_assemble {make : Config α → Except BuildFailure (World α)} {ms : List (Mesh α)}
    {os : List (DynamicObject α)} {ts : List (SpatialTrigger α)}
    (hmake : ∀ config, make config = assemble config ms (Element.inOrder os ts)) {config : Config α}
    (h : make config = .ok w) : w.RebuiltAs make := by
  have hwas := (hmake config).symm.trans h
  have hsame (config' : Config α) : w.withConfig config' = make config' := by
    rw [hmake config', withConfig_of_assemble hwas]
  refine ⟨hsame, fun config' => ?_⟩
  rw [hsame config', hmake config', assemble_reconfigured hwas]

end World

/-! ## §D Scenes and the demonstration -/

namespace Scene

/-- A scene that can be built under some tunables is, under any tunables, put together from the same meshes
and elements: its objects as they are planned, and its triggers. -/
theorem exists_build_eq_assemble {s : Scene α} {w : World α} (h : s.build = .ok w) :
    ∃ ms os, List.Forall₂ (fun p o => BuildFailure.ofFault p.create = .ok o) s.objects os ∧
      ∀ config, build { s with config } =
        World.assemble config ms (Element.inOrder os (s.triggers.map TriggerPlan.create)) := by
  obtain ⟨w₁, hmeshes, h⟩ := bind_eq_ok_iff.mp h
  obtain ⟨w₂, hobjects, -⟩ := bind_eq_ok_iff.mp h
  obtain ⟨ms, hms⟩ := exists_prepared hmeshes
  obtain ⟨os, hos⟩ := exists_prepared hobjects
  refine ⟨ms, os, hos, fun config => ?_⟩
  have haddMeshes (w : World α) : s.meshes.foldlM addMesh w = w.addMeshes ms := by
    refine (foldlM_prepared hms w).trans ?_
    simp only [World.addMeshes, List.foldlM_cons, List.foldlM_nil, bind_pure]
  have haddObjects (w : World α) : s.objects.foldlM addObject w = w.addObjects os := by
    refine (foldlM_prepared hos w).trans ?_
    simp only [World.addObjects, List.foldlM_cons, List.foldlM_nil, bind_pure]
  unfold build World.assemble
  simp only [haddMeshes, haddObjects, World.addAll_inOrder]

theorem rebuiltAs_of_build {s : Scene α} {w : World α} (h : s.build = .ok w) :
    w.RebuiltAs fun config => build { s with config } := by
  obtain ⟨ms, os, -, hassemble⟩ := exists_build_eq_assemble h
  exact World.rebuiltAs_of_assemble hassemble h

end Scene

namespace Demo

/-- The demonstration is, under any tunables, put together from the same meshes and elements. -/
theorem exists_world_eq_assemble {config : Config α} {w : World α} (h : world config = .ok w) :
    ∃ ms ts, ∀ config' : Config α, world config' = World.assemble config' ms (Element.inOrder objects ts) := by
  obtain ⟨a, harena, h⟩ := bind_eq_ok_iff.mp h
  obtain ⟨p, hpool, h⟩ := bind_eq_ok_iff.mp h
  refine ⟨[a, p], [goal ⟨UInt32.ofNat ((objects : List (DynamicObject α)).length + 1)⟩], fun config' => ?_⟩
  unfold world World.assemble
  rw [harena, ok_bind, hpool, ok_bind]
  simp only [World.addAll_inOrder]
  refine bind_congr_of_ok fun withMeshes hmeshes => ?_
  refine bind_congr_of_ok fun withObjects hobjects => ?_
  -- the goal is numbered by the elements before it, and these are the objects
  rw [World.addObjects_eq_addAll] at hobjects
  have helements := (World.addAll_eq_ok hobjects).2
  rw [(World.addMeshes_eq_ok hmeshes).2] at helements
  have hsize : withObjects.elements.size = (objects : List (DynamicObject α)).length := by
    rw [← Array.length_toList, helements]
    simp [World.new]
  rw [hsize]

theorem rebuiltAs_of_world {config : Config α} {w : World α} (h : world config = .ok w) :
    w.RebuiltAs world := by
  obtain ⟨ms, ts, hassemble⟩ := exists_world_eq_assemble h
  exact World.rebuiltAs_of_assemble hassemble h

/-- There is a demonstration. -/
theorem isOk_world_standard : (world (Config.standard : Config Float32)).isOk = true := by
  decide +kernel

end Demo

/-! ## §E What comes of other tunables -/

/-- The world of a file is that of its scene. -/
theorem World.ofFile_of_scene {text : Option String} {s : Scene Float32}
    (h : fileValue Scene.ofJson? text = .ok s) : World.ofFile text = StartFailure.ofBuild s.build := by
  unfold World.ofFile
  rw [h]

/-- The world that a run would start with if it were given no tunables. -/
def Options.ownWorld (o : Options) (files : String → Option String) : Except StartFailure (World Float32) :=
  match o.world with
  | some place => World.ofFile (files place)
  | none => StartFailure.ofBuild (Demo.world Config.standard)

/-- A run that is given tunables starts with that world, rebuilt. -/
theorem Options.startWorld_of_config {o : Options} {files : String → Option String} {path : String}
    {config : Config Float32} {w : World Float32} (hpath : o.config = some path)
    (hconfig : Config.ofFile (files path) = .ok config) (hworld : o.ownWorld files = .ok w) :
    o.startWorld files = StartFailure.ofBuild (w.withConfig config) := by
  unfold ownWorld at hworld
  unfold startWorld
  rw [hpath]
  cases hplace : o.world with
  | none =>
    rw [hplace] at hworld
    simp only [hworld, hconfig]
    rfl
  | some place =>
    rw [hplace] at hworld
    simp only [hworld, hconfig]
    rfl

/-- **Other tunables for a built world make it the world that is built under them.** Every scene that can be
built, and the demonstration, is rebuilt under any tunables as it is built under them. A run that is given
tunables of its own therefore starts as if its scene had them. -/
theorem withConfig_rebuilds :
    (∀ (s : Scene Float32) (w : World Float32), s.build = .ok w →
      w.RebuiltAs fun config => Scene.build { s with config }) ∧
    (∀ (config : Config Float32) (w : World Float32), Demo.world config = .ok w → w.RebuiltAs Demo.world) ∧
    (∃ w : World Float32, Demo.world Config.standard = .ok w) ∧
    ∀ (o : Options) (files : String → Option String) (path : String) (config : Config Float32),
      o.config = some path → Config.ofFile (files path) = .ok config →
      (o.world = none → o.startWorld files = StartFailure.ofBuild (Demo.world config)) ∧
      ∀ (place : String) (s : Scene Float32) (w : World Float32), o.world = some place →
        fileValue Scene.ofJson? (files place) = .ok s → s.build = .ok w →
        o.startWorld files = StartFailure.ofBuild (Scene.build { s with config }) := by
  obtain ⟨demo, hstandard⟩ := exists_eq_ok_of_isOk Demo.isOk_world_standard
  refine ⟨fun s w => Scene.rebuiltAs_of_build, fun config w => Demo.rebuiltAs_of_world, ⟨demo, hstandard⟩,
    fun o files path config hpath hconfig => ⟨?_, ?_⟩⟩
  · intro hnone
    have hworld : o.ownWorld files = .ok demo := by
      unfold Options.ownWorld
      rw [hnone, hstandard]
      rfl
    rw [o.startWorld_of_config hpath hconfig hworld, (Demo.rebuiltAs_of_world hstandard).same]
  · intro place s w hplace hfile hbuild
    have hworld : o.ownWorld files = .ok w := by
      unfold Options.ownWorld
      rw [hplace]
      show World.ofFile (files place) = _
      rw [World.ofFile_of_scene hfile, hbuild]
      rfl
    rw [o.startWorld_of_config hpath hconfig hworld, (Scene.rebuiltAs_of_build hbuild).same]

/-- A ball above the step, and a room around both. -/
def ballScene : Scene Float32 where
  config := Config.standard
  meshes := [stepMesh.data]
  objects := [⟨⟨1⟩, ⟨.sphere 0.5, 0.5, 0.25, 0.25⟩, ⟨0, 3, 0⟩, Vec3.zero, 0, Layers.all, false, .none, .medium,
    .neutral⟩]
  triggers := [⟨⟨2⟩, .box ⟨5, 5, 5⟩, ⟨0, 0, 0⟩, 0, Layers.all⟩]

/-- The text of its file. -/
def ballText : String := .ofList <|
  "\x7b\"meshes\":[".toList ++ stepText.toList ++
  "],\"objects\":[\x7b\"entity_id\":1,\"object_type\":\x7b\"shape\":\x7b\"type\":".toList ++
  "\"sphere\",\"radius\":0.5\x7d,\"bounce\":0.5,\"friction\":0.25,\"max_stable_slope\":".toList ++
  "0.25\x7d,\"position\":[0,3,0]\x7d],\"triggers\":[\x7b\"entity_id\":2,\"shape\":".toList ++
  "\x7b\"type\":\"box\",\"half_size\":[5,5,5]\x7d,\"position\":[0,0,0]\x7d]\x7d".toList

/-- Tunables of a small pool and a low kill plane. -/
def lowConfig : Config Float32 := { Config.standard with contactPoolCapacity := 16, killPlaneMargin := 2.5 }

/-- The text of their file. -/
def lowText : String :=
  .ofList "\x7b\"contact_pool_capacity\":16,\"kill_plane_margin\":2.5\x7d".toList

/-- The files by name. -/
def ballFiles (path : String) : Option String := if path = "ball" then some ballText else some lowText

/-- The ball falls as far as the other tunables say. -/
theorem ballScene_rebuilds :
    Config.ofFile (ballFiles "low") = .ok lowConfig ∧
    fileValue Scene.ofJson? (ballFiles "ball") = .ok ballScene ∧
    (∃ w, ballScene.build = .ok w ∧ w.RebuiltAs fun config => Scene.build { ballScene with config }) ∧
    Options.startWorld ⟨some "ball", some "low", 600, 1⟩ ballFiles =
      StartFailure.ofBuild (Scene.build { ballScene with config := lowConfig }) := by
  have hball : fileValue Scene.ofJson? (ballFiles "ball") = .ok ballScene := by
    have hread : (Json.ofText? ballText).bind Scene.ofJson? = some ballScene := by
      unfold ballText stepText
      rw [Json.ofText?_ofList]
      repeat rw [String.toList_ofList]
      decide +kernel
    rw [ballFiles, if_pos rfl, fileValue, hread]
  have hlow : Config.ofFile (ballFiles "low") = .ok lowConfig := by
    have hread : (Json.ofText? lowText).bind Config.ofJson? = some lowConfig := by
      unfold lowText
      rw [Json.ofText?_ofList, String.toList_ofList]
      decide +kernel
    rw [ballFiles, if_neg (by decide), Config.ofFile, fileValue, hread]
  obtain ⟨w, hw⟩ := exists_eq_ok_of_isOk (show ballScene.build.isOk = true by decide +kernel)
  obtain ⟨hscene, -, -, hrun⟩ := withConfig_rebuilds
  refine ⟨hlow, hball, ⟨w, hw, hscene ballScene w hw⟩, ?_⟩
  obtain ⟨-, hstart⟩ := hrun ⟨some "ball", some "low", 600, 1⟩ ballFiles "low" lowConfig rfl hlow
  exact hstart "ball" ballScene w rfl hball hw

end ConvexCollision
