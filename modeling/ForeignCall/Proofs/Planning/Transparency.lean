import ForeignCall.Proofs.Planning.Alike
import ForeignCall.Proofs.Resolution.AliasChains

/-!
# Aliases are transparent

A declaration may name a type directly or through aliases.  `Callable.followAliases` writes a
callable without them: every type name and every name of an array element is replaced by the one
that its aliases lead to.  What a constructor returns is left as it is, since the name of its type
becomes the name of the handle.

Classes and enumerations are read off the name that aliases lead to, so a name and the one that it
leads to are resolved alike; that following aliases a second time changes nothing is all that is
needed (`Registry.followAliases_followAliases`), also for a chain that runs in a circle or is too
long.  The shapes of the two callables are then planned alike (`Planner.alikeShapes_followAliases`),
and so are the callables (`Planner.planning_followAliases`).
-/

namespace ForeignCall

/-! ### Declarations without aliases -/

/-- The shape with the aliases of its name, or of its element's name, followed. -/
def Shape.followAliases (r : Registry) : Shape → Shape
  | scalar name => scalar (r.followAliases name)
  | array spec => array { spec with element := r.followAliases spec.element }

/-- The parameter with the aliases of its type followed. -/
def Parameter.followAliases (r : Registry) (a : Parameter) : Parameter :=
  { a with shape := a.shape.map (·.followAliases r) }

/-- The return value with the aliases of its type followed. -/
def ReturnValue.followAliases (r : Registry) (a : ReturnValue) : ReturnValue :=
  { a with shape := a.shape.map (·.followAliases r) }

/-- The callable with the aliases of all types followed, other than the type that a constructor
returns. -/
def Callable.followAliases (r : Registry) (c : Callable) : Callable :=
  { c with
    receiver := c.receiver.map (·.followAliases r)
    params := c.params.map (·.followAliases r)
    result := if c.kind = .constructor then c.result else c.result.followAliases r }

/-! ### Names -/

namespace Registry

variable (r : Registry) (name : TypeName)

/-- A name has the class of the name that its aliases lead to. -/
@[simp] theorem resolve_followAliases : r.resolve (r.followAliases name) = r.resolve name := by
  rw [resolve, resolve, followAliases_followAliases]

/-- A name denotes the enumeration of the name that its aliases lead to. -/
@[simp] theorem enumeration?_followAliases :
    r.enumeration? (r.followAliases name) = r.enumeration? name := by
  rw [enumeration?, enumeration?, followAliases_followAliases]

end Registry

namespace Planner

variable (p : Planner)

/-! ### Shapes -/

/-- A shape is planned alike with its aliases followed. -/
theorem alikeShapes_followAliases (shape : Shape) :
    p.AlikeShapes p (shape.followAliases p.registry) shape := by
  constructor
  case conversion_eq =>
    cases shape with
    | scalar name =>
      have hname : p.ofName (p.registry.followAliases name) = p.ofName name := by
        simp only [ofName, Registry.resolve_followAliases, Registry.enumeration?_followAliases]
      rw [Shape.followAliases, conversion, conversion, hname]
    | array spec =>
      have helement : p.ofElement (p.registry.followAliases spec.element) =
          p.ofElement spec.element := by
        simp only [ofElement, Registry.resolve_followAliases, Registry.enumeration?_followAliases]
      rw [Shape.followAliases, conversion, conversion, helement]
  case slot_eq =>
    have hresolved : p.registry.resolveShape (shape.followAliases p.registry) =
        p.registry.resolveShape shape := by
      cases shape <;>
        simp only [Shape.followAliases, Registry.resolveShape, Registry.resolve_followAliases]
    rw [Signature.shapeSlot, Signature.shapeSlot, hresolved]

/-- Whether or not there is a shape, following its aliases plans alike. -/
theorem rel_map_followAliases (shape? : Option Shape) :
    Option.Rel (p.AlikeShapes p) (shape?.map (·.followAliases p.registry)) shape? := by
  cases shape? with
  | none => exact .none
  | some shape => exact .some (p.alikeShapes_followAliases shape)

/-! ### Callables -/

/-- A parameter is planned alike with its aliases followed. -/
theorem alikeParams_followAliases (a : Parameter) :
    p.AlikeParams p (a.followAliases p.registry) a :=
  ⟨rfl, rfl, rfl, rfl, p.rel_map_followAliases a.shape⟩

/-- A callable is planned alike with its aliases followed. -/
theorem alikeCallables_followAliases (c : Callable) :
    p.AlikeCallables p (c.followAliases p.registry) c := by
  constructor
  case receiver =>
    unfold Callable.followAliases
    cases c.receiver with
    | none => exact .none
    | some receiver => exact .some (p.alikeParams_followAliases receiver)
  case params =>
    refine List.forall₂_map_left_iff.mpr (List.forall₂_same.mpr fun a _ => ?_)
    exact p.alikeParams_followAliases a
  case constructed_eq =>
    intro hkind
    have hconstructor : c.kind = .constructor := hkind
    have hresult : (c.followAliases p.registry).result = c.result := if_pos hconstructor
    rw [planConstructed, planConstructed, constructed, constructed, hresult]
    rfl
  case result =>
    intro hkind
    have hother : c.kind ≠ .constructor := hkind
    have hresult : (c.followAliases p.registry).result = c.result.followAliases p.registry :=
      if_neg hother
    rw [hresult]
    exact ⟨rfl, rfl, p.rel_map_followAliases c.result.shape⟩
  all_goals rfl

/-- Aliases are transparent: a callable has the same plan and the same signature, or the same
errors, with its aliases followed, and every name stands for what the name that it leads to stands
for. -/
theorem planning_followAliases (c : Callable) :
    Signature.ofCallable p.registry p.platform (c.followAliases p.registry) =
        Signature.ofCallable p.registry p.platform c ∧
      p.plan (c.followAliases p.registry) = p.plan c ∧
      ∀ name, p.registry.followAliases (p.registry.followAliases name) =
          p.registry.followAliases name ∧
        p.registry.resolve (p.registry.followAliases name) = p.registry.resolve name ∧
        p.registry.enumeration? (p.registry.followAliases name) = p.registry.enumeration? name ∧
        p.conversion (.scalar (p.registry.followAliases name)) = p.conversion (.scalar name) := by
  have halike := p.alikeCallables_followAliases c
  refine ⟨halike.signature_eq, halike.plan_eq rfl, fun name => ?_⟩
  have hconversion := (p.alikeShapes_followAliases (.scalar name)).conversion_eq
  exact ⟨p.registry.followAliases_followAliases name, p.registry.resolve_followAliases name,
    p.registry.enumeration?_followAliases name, hconversion⟩

end Planner

end ForeignCall
