/-
Tasks exchanged for others that behave alike.

Whatever is done with a tree (a `Request`) can be done with its tasks
translated, and comes to the same with the tasks translated (`serveAll_map`).
Planting and renewal are no different from steps in this.

Tasks are `Interchangeable` if they have the same name and arity, if their hooks
do the same, and if what their hooks leave of them is interchangeable again.
Then there is a translation that does not tell them apart, to the tasks up to
interchange (`Interchangeable.behavior`). So trees whose tasks were exchanged
for interchangeable ones give the same answers, and they agree in everything but
the tasks themselves, however long they are used (`serveAll_exchanged`). -/
import TaskTree.Proofs.Arena.Construction
import TaskTree.Proofs.Arena.Shadow

namespace TaskTree

variable {E T U V : Type}

-- ============================================================= blueprints

namespace Blueprint

mutual

/-- Translates all tasks. -/
def map (f : T → U) : Blueprint T → Blueprint U
  | .node task guard children =>
    .node (f task) (mapGuard f guard) (mapAll f children)

/-- Translates the tasks of a guard. -/
def mapGuard (f : T → U) : Option (Blueprint T) → Option (Blueprint U)
  | none => none
  | some guard => some (guard.map f)

/-- Translates the tasks of a row of blueprints. -/
def mapAll (f : T → U) : List (Blueprint T) → List (Blueprint U)
  | [] => []
  | child :: rest => child.map f :: mapAll f rest

end

mutual

/-- Exchanging the tasks of a blueprint twice is exchanging them once, along the
composition. -/
theorem map_map (f : T → U) (g : U → V) (b : Blueprint T) :
    (b.map f).map g = b.map (g ∘ f) := by
  match b with
  | .node task guard children =>
      rw [map, map, map, mapGuard_map, mapAll_map]
      rfl

/-- The same for a guard. -/
theorem mapGuard_map (f : T → U) (g : U → V) (guard : Option (Blueprint T)) :
    mapGuard g (mapGuard f guard) = mapGuard (g ∘ f) guard := by
  match guard with
  | none => rfl
  | some guard => rw [mapGuard, mapGuard, mapGuard, map_map f g guard]

/-- The same for children. -/
theorem mapAll_map (f : T → U) (g : U → V) (children : List (Blueprint T)) :
    mapAll g (mapAll f children) = mapAll (g ∘ f) children := by
  match children with
  | [] => rfl
  | child :: rest =>
      rw [mapAll, mapAll, mapAll, map_map f g child, mapAll_map f g rest]

end

end Blueprint

namespace Arena

variable {f : T → U} {heeded : Listener → Bool}

-- ================================================================ growing

section Growing

variable [Behavior E T] [Behavior E U]

/-- What a slot notes of its task is its name and its arity, and a translation
keeps both. -/
theorem slot_of_map (h : Translation f) (occupant : Occupant T)
    (parent : Option TaskId) :
    (Slot.of occupant parent).map f = Slot.of (occupant.map f) parent := by
  unfold Slot.of
  rw [h.occupant.name, h.occupant.arity]
  rfl

/-- A task that is put into a slot of the shadow is the exchanged one. -/
theorem occupy_shadow (h : Translation f) (a : Arena E T) (task : T)
    (parent : Option TaskId) :
    (a.occupy task parent).shadow f heeded
      = (a.shadow f heeded).occupy (f task) parent := by
  have hslots : (a.slots.push (Slot.of (.task task) parent)).map (Slot.map f)
      = (a.slots.map (Slot.map f)).push (Slot.of (.task (f task)) parent) := by
    rw [Array.map_push, slot_of_map h]
    rfl
  unfold occupy shadow
  dsimp only
  rw [hslots]

omit [Behavior E T] [Behavior E U] in
/-- A link is made in the shadow as in the arena, and announced to the heeded
listeners. -/
theorem attachLink_shadow (link : Link) (id : TaskId) (a : Arena E T) :
    (attachLink link id a).shadow f heeded
      = attachLink link id (a.shadow f heeded) := by
  cases link with
  -- Each link changes one slot, by a change that leaves its task alone.
  | root =>
      have hlinked : ({ a with root := some id }.modify id fun s =>
            { s with control := some .tree }).shadow f heeded
          = ({ a.shadow f heeded with root := some id } : Arena E U).modify id
            fun s => { s with control := some .tree } :=
        modify_shadow _ id fun _ => rfl
      rw [attachLink, attachLink, announce_shadow, hlinked]
  | child parent =>
      have hlinked : (a.modify parent fun s =>
            { s with children := s.children ++ [id] }).shadow f heeded
          = (a.shadow f heeded).modify parent fun s =>
            { s with children := s.children ++ [id] } :=
        modify_shadow _ parent fun _ => rfl
      rw [attachLink, attachLink, announce_shadow, hlinked, childrenOf_shadow]
  | guard owner => exact modify_shadow _ owner fun _ => rfl

omit [Behavior E T] [Behavior E U] in
/-- A shadow has as many slots as its arena, so both have the same next
number. -/
theorem nextId_shadow (a : Arena E T) : (a.shadow f heeded).nextId = a.nextId :=
  congrArg TaskId.mk Array.size_map

mutual

/-- A blueprint is planted in the shadow exchanged. -/
theorem plant_shadow (h : Translation f) (link : Link) (b : Blueprint T)
    (a : Arena E T) :
    (plant link b a).shadow f heeded
      = plant link (b.map f) (a.shadow f heeded) := by
  match b with
  | .node task guard children =>
      rw [plant, Blueprint.map, plant, plantAll_shadow h, plantGuard_shadow h,
        attachLink_shadow, occupy_shadow h, nextId_shadow]

/-- The same for a guard, where there is one. -/
theorem plantGuard_shadow (h : Translation f) (owner : TaskId)
    (guard : Option (Blueprint T)) (a : Arena E T) :
    (plantGuard owner guard a).shadow f heeded
      = plantGuard owner (Blueprint.mapGuard f guard) (a.shadow f heeded) := by
  match guard with
  | none => rfl
  | some guard => exact plant_shadow h (.guard owner) guard a

/-- The same for children, one after another. -/
theorem plantAll_shadow (h : Translation f) (parent : TaskId)
    (children : List (Blueprint T)) (a : Arena E T) :
    (plantAll parent children a).shadow f heeded
      = plantAll parent (Blueprint.mapAll f children) (a.shadow f heeded) := by
  match children with
  | [] => rfl
  | child :: rest =>
      rw [plantAll, Blueprint.mapAll, plantAll,
        ← plant_shadow h (.child parent) child a]
      exact plantAll_shadow h parent rest _

end

omit [Behavior E T] [Behavior E U] in
/-- The guard evaluator is hidden in the shadow, as it is in the arena. -/
theorem shown?_shadow (a : Arena E T) (id : TaskId) :
    (a.shadow f heeded).shown? id = (a.shown? id).map (Slot.map f) := by
  rw [shown?, shown?, slot?_shadow]
  split <;> rfl

/-- Translates the tasks of a blueprint that is to be planted. -/
def Construction.map (f : T → U) : Construction T → Construction U
  | .setRoot root => .setRoot (root.map f)
  | .attach parent child => .attach parent (child.map f)
  | .setGuard owner guard => .setGuard owner (guard.map f)

omit [Behavior E T] [Behavior E U] in
/-- Exchanging the tasks of a call twice is exchanging them once. -/
theorem Construction.map_map (f : T → U) (g : U → V) (call : Construction T) :
    (call.map f).map g = call.map (g ∘ f) := by
  cases call with
  | setRoot root => exact congrArg setRoot (root.map_map f g)
  | attach parent child => exact congrArg (attach parent) (child.map_map f g)
  | setGuard owner guard => exact congrArg (setGuard owner) (guard.map_map f g)

/-- A call of construction is answered alike, and what it plants is
translated. -/
theorem perform_shadow (h : Translation f) (call : Construction T)
    (a : Arena E T) :
    (call.map f).perform (a.shadow f heeded)
      = shadowResult f heeded (call.perform a) := by
  -- Each call asks one thing before it plants: whether there is a root, whether
  -- the parent has room, or whether the owner has a guard. None of these
  -- depends on the tasks.
  have hroot : (a.shadow f heeded).root = a.root := rfl
  cases call with
  | setRoot root =>
      unfold Construction.map Construction.perform Construction.attempt setRoot
      dsimp only
      rw [hroot, nextId_shadow, ← plant_shadow h]
      cases a.root <;> rfl
  | attach parent child =>
      unfold Construction.map Construction.perform Construction.attempt attach
      dsimp only
      rw [shown?_shadow, nextId_shadow, ← plant_shadow h]
      cases a.shown? parent with
      | none => rfl
      | some slot =>
          have hroom : (slot.map f).arity.exceeded? (slot.map f).children.length
              = slot.arity.exceeded? slot.children.length := rfl
          dsimp only [Option.map_some]
          rw [hroom]
          cases slot.arity.exceeded? slot.children.length <;> rfl
  | setGuard owner guard =>
      unfold Construction.map Construction.perform Construction.attempt setGuard
      dsimp only
      rw [shown?_shadow, nextId_shadow, ← plant_shadow h]
      cases a.shown? owner with
      | none => rfl
      | some slot =>
          have hguard : (slot.map f).guard = slot.guard := rfl
          dsimp only [Option.map_some]
          rw [hguard]
          cases slot.guard <;> rfl

-- ================================================================ renewal

/-- A translation goes along with rewinding, so a slot may be exchanged before
its reset or after. -/
theorem slot_reset_map (h : Translation f) (s : Slot T) :
    s.reset.map f = (s.map f).reset := by
  have hoccupant : (s.occupant.map Behavior.rewind).map (Occupant.map f)
      = (s.occupant.map (Occupant.map f)).map Behavior.rewind := by
    rw [Option.map_map, Option.map_map]
    exact congrArg (fun g => Option.map g s.occupant)
      (funext fun o => (h.occupant.rewind o).symm)
  unfold Slot.reset Slot.map
  dsimp only
  rw [hoccupant]

/-- A reset goes along with the exchange, to any depth. Its guard and its
children are those of the shadow. -/
theorem resetFrom_shadow (h : Translation f) (depth : Nat) (id : TaskId)
    (a : Arena E T) :
    (resetFrom depth id a).shadow f heeded
      = resetFrom depth id (a.shadow f heeded) := by
  induction depth generalizing id a with
  | zero => rfl
  | succ depth ih =>
      have hself : (a.modify id Slot.reset).shadow f heeded
          = (a.shadow f heeded).modify id Slot.reset :=
        modify_shadow a id (slot_reset_map h)
      have hchildren (a : Arena E T) (children : List TaskId) :
          (children.foldl (fun a child => resetFrom depth child a) a).shadow f
            heeded
            = children.foldl (fun a child => resetFrom depth child a)
              (a.shadow f heeded) :=
        (List.foldl_hom (shadow f heeded) fun a child => (ih child a).symm).symm
      -- The task, then its guard, then its children; each of the arenas in
      -- between is the shadow of the one that it stands for.
      rw [resetFrom, resetFrom, hchildren, ← hself, guardOf_shadow]
      cases (a.modify id Slot.reset).guardOf id with
      | none =>
          dsimp only
          rw [childrenOf_shadow]
      | some guard =>
          dsimp only
          rw [← ih, childrenOf_shadow]

omit [Behavior E T] [Behavior E U] in
/-- Control of the root is given to the tree in the shadow, too. -/
theorem anchorRoot_shadow (a : Arena E T) :
    a.anchorRoot.shadow f heeded = (a.shadow f heeded).anchorRoot := by
  have hroot : (a.shadow f heeded).root = a.root := rfl
  rw [anchorRoot, anchorRoot, hroot]
  cases a.root with
  | none => rfl
  | some root => exact modify_shadow a root fun _ => rfl

/-- The shadow of a reset arena is the reset shadow. -/
theorem reset_shadow (h : Translation f) (a : Arena E T) :
    a.reset.shadow f heeded = (a.shadow f heeded).reset := by
  have hroot : (a.shadow f heeded).root = a.root := rfl
  have hsize : (a.shadow f heeded).slots.size = a.slots.size := Array.size_map
  unfold reset
  dsimp only
  rw [hroot, hsize]
  cases a.root with
  | none => rfl
  | some root =>
      dsimp only
      rw [← resetFrom_shadow h, ← anchorRoot_shadow]
      rfl

/-- A copy for another board has the copied shadow for its shadow. -/
theorem instantiate_shadow (h : Translation f) (a : Arena E T) (board : E) :
    (a.instantiate board).shadow f heeded
      = (a.shadow f heeded).instantiate board := by
  have hslots : (a.slots.map Slot.reset).map (Slot.map f)
      = (a.slots.map (Slot.map f)).map Slot.reset := by
    rw [Array.map_map, Array.map_map]
    exact congrArg (fun g => Array.map g a.slots) (funext (slot_reset_map h))
  unfold instantiate
  rw [anchorRoot_shadow]
  unfold shadow
  dsimp only
  rw [hslots]
  rfl

end Growing

-- =============================================================== requests

/-- What may be done with a tree. -/
inductive Request (E T : Type) where
  | construct (call : Construction T)
  | step (budget : Nat) (delta : Float32)
  | reset
  | instantiate (board : E)
  /-- Somebody writes the board, changes the listeners or takes the journal. -/
  | outside (board : E) (listeners : List Listener) (journal : Array Entry)

/-- What is given back for a request. -/
inductive Answer where
  | constructed (result : Except Fault TaskId)
  | stepped (result : Except Fault Status)
  | done

namespace Request

/-- Translates the tasks that a request brings along. -/
def map (f : T → U) : Request E T → Request E U
  | .construct call => .construct (call.map f)
  | .step budget delta => .step budget delta
  | .reset => .reset
  | .instantiate board => .instantiate board
  | .outside board listeners journal => .outside board listeners journal

/-- Exchanging the tasks of a request twice is exchanging them once. -/
theorem map_map (f : T → U) (g : U → V) (request : Request E T) :
    (request.map f).map g = request.map (g ∘ f) := by
  cases request with
  | construct call => exact congrArg construct (call.map_map f g)
  | step | reset | instantiate | outside => rfl

/-- Does what is asked for. -/
def serve [Behavior E T] : Request E T → Arena E T → Option (Answer × Arena E T)
  | .construct call, a => some ((call.perform a).map .constructed id)
  | .step budget delta, a =>
    (Arena.step budget delta a).map (Prod.map .stepped id)
  | .reset, a => some (.done, a.reset)
  | .instantiate board, a => some (.done, a.instantiate board)
  | .outside board listeners journal, a =>
    some (.done, { a with board, listeners, journal })

end Request

/-- Does what is asked for, one after another. -/
def serveAll [Behavior E T] :
    List (Request E T) → Arena E T → Option (List Answer × Arena E T)
  | [], a => some ([], a)
  | request :: requests, a =>
    (request.serve a).bind fun (answer, a) =>
      (serveAll requests a).map (Prod.map (answer :: ·) id)

/-- An arena with all tasks translated. -/
def map (f : T → U) (a : Arena E T) : Arena E U :=
  { a with slots := a.slots.map (Slot.map f) }

/-- All of an arena but the tasks in its slots. -/
def bare (a : Arena E T) : Arena E Unit := a.map fun _ => ()

/-- When all listeners are heeded, only the tasks are exchanged. -/
theorem shadow_true (f : T → U) (a : Arena E T) :
    a.shadow f (fun _ => true) = a.map f := by
  have hlisteners : a.listeners.filter (fun _ => true) = a.listeners :=
    List.filter_eq_self.2 fun _ _ => rfl
  have hjournal : a.journal.filter (Entry.kept fun _ => true) = a.journal :=
    Array.filter_eq_self.2 fun entry _ => by cases entry <;> rfl
  rw [shadow, hlisteners, hjournal]
  rfl

/-- Exchanging all tasks of an arena twice is exchanging them once. -/
theorem map_map (f : T → U) (g : U → V) (a : Arena E T) :
    (a.map f).map g = a.map (g ∘ f) := by
  unfold map
  dsimp only
  rw [Array.map_map]
  exact congrArg (fun k => { a with slots := a.slots.map k })
    (funext (Slot.map_map f g))

variable [Behavior E T] [Behavior E U]

/-- A request is answered alike when all tasks are translated. -/
theorem serve_map (h : Translation f) (request : Request E T) (a : Arena E T) :
    (request.map f).serve (a.map f)
      = (request.serve a).map (Prod.map id (Arena.map f)) := by
  rw [← funext (shadow_true f)]
  -- Each request has its fact above, for a shadow in which all listeners are
  -- heeded.
  cases request with
  | construct call =>
      rw [Request.map, Request.serve, perform_shadow h]
      rfl
  | step budget delta =>
      rw [Request.map, Request.serve, step_shadow h _ budget delta,
        Request.serve, Option.map_map, Option.map_map]
      rfl
  | reset =>
      rw [Request.map, Request.serve, ← reset_shadow h]
      rfl
  | instantiate board =>
      rw [Request.map, Request.serve, ← instantiate_shadow h]
      rfl
  | outside board listeners journal =>
      rw [funext (shadow_true f)]
      rfl

/-- However long a tree is used, its answers do not depend on a translation. -/
theorem serveAll_map (h : Translation f) (requests : List (Request E T))
    (a : Arena E T) :
    serveAll (requests.map (Request.map f)) (a.map f)
      = (serveAll requests a).map (Prod.map id (Arena.map f)) := by
  induction requests generalizing a with
  | nil => rfl
  | cons request requests ih =>
      rw [List.map_cons, serveAll, serveAll, serve_map h, Option.bind_map,
        Option.map_bind]
      refine Option.bind_congr fun r _ => ?_
      obtain ⟨answer, a⟩ := r
      show (serveAll (requests.map (Request.map f)) (a.map f)).map _
        = ((serveAll requests a).map _).map _
      rw [ih, Option.map_map, Option.map_map]
      rfl

end Arena

-- ========================================================= interchangeable

open Arena

variable [Behavior E T] {R : T → T → Prop}

/-- Tasks of which no tree can tell whether they were exchanged. -/
structure Interchangeable (R : T → T → Prop) : Prop where
  name : ∀ {task task'}, R task task' → Behavior.name task = Behavior.name task'
  arity : ∀ {task task'}, R task task' →
    Behavior.arity task = Behavior.arity task'
  /-- The hooks do the same, and leave tasks that are interchangeable. -/
  hook : ∀ {task task'}, R task task' → ∀ call : Call,
    (call.hook task).map (Quot.mk R) = (call.hook task').map (Quot.mk R)
  rewind : ∀ {task task'}, R task task' →
    Quot.mk R (Behavior.rewind task) = Quot.mk R (Behavior.rewind task')

namespace Interchangeable

/-- Tasks that are only told apart if they are not interchangeable. -/
@[reducible] def behavior (h : Interchangeable R) : Behavior E (Quot R) where
  -- Related tasks have the same names, arities and hooks, so each of these may
  -- be asked of a class of tasks.
  name := Quot.lift Behavior.name fun _ _ => h.name
  arity := Quot.lift Behavior.arity fun _ _ => h.arity
  start := Quot.lift (fun task => (Behavior.start task).map (Quot.mk R))
    fun _ _ related => h.hook related .start
  update := Quot.lift (fun task => (Behavior.update task).map (Quot.mk R))
    fun _ _ related => h.hook related .update
  respond outcome child :=
    Quot.lift (fun task =>
        (Behavior.respond outcome child task).map (Quot.mk R))
      fun _ _ related => h.hook related (.respond outcome child)
  rewind :=
    Quot.lift (fun task => Quot.mk R (Behavior.rewind task)) fun _ _ => h.rewind

/-- Putting a task into its class is a translation, into the tasks of the
classes. -/
theorem translation (h : Interchangeable R) :
    let _ := h.behavior
    Translation (E := E) (Quot.mk R) :=
  let _ := h.behavior
  { name := fun _ => rfl
    arity := fun _ => rfl
    hook := fun call _ => by cases call <;> rfl
    rewind := fun _ => rfl }

/-- Trees in which tasks were exchanged for interchangeable ones give the same
answers, and nothing but their tasks differs. -/
theorem serveAll_exchanged (h : Interchangeable R) {exchange exchange' : V → T}
    (hexchange : ∀ v, Quot.mk R (exchange v) = Quot.mk R (exchange' v))
    (plan : List (Request E V)) {a a' : Arena E T}
    (ha : a.map (Quot.mk R) = a'.map (Quot.mk R)) :
    (serveAll (plan.map (Request.map exchange)) a).map (Prod.map id bare)
      = (serveAll (plan.map (Request.map exchange')) a').map
        (Prod.map id bare) := by
  let _ := h.behavior
  -- Both plans are the same plan of classes, served to the same arena of
  -- classes. What is bare of an arena can be read off its classes.
  have hsame : Quot.mk R ∘ exchange = Quot.mk R ∘ exchange' := funext hexchange
  have htranslated : ∀ (x : V → T) (a : Arena E T),
      (serveAll (plan.map (Request.map x)) a).map
        (Prod.map id (Arena.map (Quot.mk R)))
        = serveAll (plan.map (Request.map (Quot.mk R ∘ x)))
          (a.map (Quot.mk R)) := by
    intro x a
    rw [← serveAll_map h.translation, List.map_map]
    exact congrArg (fun k => serveAll (plan.map k) _)
      (funext (Request.map_map x (Quot.mk R)))
  have hbare : Prod.map id bare
      = Prod.map id bare
        ∘ Prod.map (id : List Answer → _) (Arena.map (E := E) (Quot.mk R)) :=
    funext fun r => congrArg (Prod.mk r.1)
      (map_map (Quot.mk R) (fun _ => ()) r.2).symm
  rw [hbare, ← Option.map_map, htranslated, ha, hsame, ← htranslated,
    Option.map_map]

end Interchangeable

end TaskTree
