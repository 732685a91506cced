import LayeredConfig.Proofs.Convert.Paths
import LayeredConfig.Proofs.Convert.Resolution
import LayeredConfig.Sample.Catalogue

/-!
# What a listed converter answers

What a converter makes is handed on as a value whose type is not known: it is lifted link by link,
each link checks the type of what it gets, and in the end the type is checked once more. Any of
these checks could turn a good value into an error. A listed converter is a registered one or a
factory method, and the two differ in what is known of their values.

* A registered converter makes values of the type that it is registered for. The links that it is
  followed by form a path from there to the type asked for (`Registry.Lifted`), so that every check
  succeeds, whatever has been registered and declared.
* A factory method is only said to make values of its target (`FactoryMethod.MakesTarget`). One that
  keeps its word is never turned down. For one that does not, the check at the end is the first to
  notice: its handle answers that it did not produce a value of the type. It is the only way in
  which a registry comes to such an answer.

**`Registry.listed_converters_lift` says what is left of it: the answer of the registered converter
with its value lifted, its errors and its formats as they are, or what the factory method made.**

Inherited from an interface, a value takes a path of declared links to it that no other one is
shorter than (`Registry.interfaces_lift_shortest`).
-/

set_option autoImplicit false

namespace LayeredConfig

/-! ## Checks that succeed -/

namespace Conversion

variable {α β γ : Type}

/-- A step that makes something of every value is no error. -/
theorem map_andThen (c : Conversion α) {f : α → β} {g : α → γ} {step : β → Option γ}
    (error : ConvertError) (succeeds : ∀ a, step (f a) = some (g a)) :
    (c.map f).andThen error step = c.map g := by
  obtain ⟨announced, outcome⟩ := c
  -- An error and a missing value are handed on before the step is asked.
  rcases outcome with e | _ | a
  · rfl
  · rfl
  · simp [map, andThen, Except.map, succeeds]

theorem map_self (c : Conversion α) : (c.map fun a => a) = c := by
  obtain ⟨announced, e | _ | a⟩ := c <;> rfl

theorem map_map (c : Conversion α) (f : α → β) (g : β → γ) :
    (c.map f).map g = c.map fun a => g (f a) := by
  obtain ⟨announced, e | _ | a⟩ := c <;> rfl

end Conversion

namespace ConverterHandle

variable {target : TypeKey} {handle : ConverterHandle} {c : Conversion (Typed target)} {text : String}
  {ctx : ConversionContext}

/-- Where all values have the type asked for, the check at the end is passed and forgotten. -/
theorem convert_of_run (run : handle.run text ctx = c.map fun v : Typed target => v.val) :
    handle.convert target text ctx = (c.outcome, ctx.announce c.announced) := by
  have checked : (handle.run text ctx).andThen (.typeMismatch handle.name target)
      (Value.as? target) = c.map fun v => v := by
    rw [run]
    exact Conversion.map_andThen c _ Value.as?_val
  unfold convert
  dsimp only
  rw [checked, run, Conversion.map_self]
  rfl

/-- Whatever comes out before that check is of the type already. -/
theorem type_of_run (run : handle.run text ctx = c.map fun v : Typed target => v.val) {v : Value}
    (made : (handle.run text ctx).outcome = .ok (some v)) : v.type = target := by
  rw [run] at made
  obtain ⟨announced, e | _ | w⟩ := c
  · exact nomatch made
  · exact nomatch made
  · obtain rfl := Option.some.inj (Except.ok.inj made)
    exact w.property

/-- Whatever the text and the context, a handle answers what a registered converter answers, be it
    nothing or an error, with the value lifted if there is one; and it notes the same formats. -/
def Relays (handle : ConverterHandle) (e : Registration) (lift : Typed e.target → Typed target) :
    Prop :=
  ∀ text ctx, handle.convert target text ctx =
    ((e.convert text ctx).outcome.map (Option.map lift),
      ctx.announce (e.convert text ctx).announced)

end ConverterHandle

/-! ## Factory methods -/

namespace FactoryMethod

/-- What a method makes of a text, read off at a type under the name of a handle: nothing if the
    text is refused, the product if it is of that type, and an error if it is of another. -/
def answer (m : FactoryMethod) (name : String) (target : TypeKey) (text : String) :
    Except ConvertError (Option (Typed target)) :=
  match m.invoke text with
  | .error _ => .ok none
  | .ok v =>
    match Value.as? target v with
    | some w => .ok (some w)
    | none => .error (.typeMismatch name target)

variable {m : FactoryMethod}

/-- A method that keeps its word is answered for by its products, and its refusals. -/
theorem MakesTarget.answer (keeps : m.MakesTarget) (name text : String) :
    ∃ made : Option (Typed m.target),
      made.map Subtype.val = (m.invoke text).toOption ∧ m.answer name m.target text = .ok made := by
  unfold FactoryMethod.answer
  cases made : m.invoke text with
  | error reason => exact ⟨none, rfl, rfl⟩
  | ok v =>
    have found : Value.as? m.target v = some ⟨v, keeps text v made⟩ := dif_pos (keeps text v made)
    exact ⟨some ⟨v, keeps text v made⟩, rfl, by simp only [found]⟩

end FactoryMethod

namespace ConverterHandle

/-- The handle of a factory method at any type at all. The product is checked here and nowhere
    before, so that this is all that the handle does. -/
theorem convert_ofFactory (id : Nat) (m : FactoryMethod) (target : TypeKey) (text : String)
    (ctx : ConversionContext) :
    let handle := ofFactory id m
    handle.convert target text ctx =
      (m.answer handle.name target text,
        ctx.announce (Conversion.tagged handle.name [m.name.text ++ "(String)"])) := by
  intro handle
  refine Prod.ext ?_ rfl
  simp only [convert, handle, ofFactory, Conversion.pure, Conversion.andThen, FactoryMethod.answer]
  cases m.invoke text with
  | error reason => rfl
  | ok v =>
    dsimp only
    cases Value.as? target v <;> rfl

theorem type_of_makesTarget {id : Nat} {m : FactoryMethod} (keeps : m.MakesTarget) {text : String}
    {ctx : ConversionContext} {v : Value}
    (made : ((ofFactory id m).run text ctx).outcome = .ok (some v)) : v.type = m.target := by
  dsimp only [ofFactory, Conversion.pure] at made
  cases invoked : m.invoke text with
  | error reason => simp [invoked] at made
  | ok w =>
    obtain rfl : w = v := by simpa [invoked] using made
    exact keeps text w invoked

/-- A method that is declared for ports and makes something else: its product is turned down. -/
example (ctx : ConversionContext) :
    let m : FactoryMethod := ⟨.of, .named "Port", fun _ => .ok (.whole .u32 1)⟩
    ((ofFactory 0 m).convert (.named "Port") "80" ctx).1 =
      .error (.typeMismatch "Port::of" (.named "Port")) := by
  rfl

end ConverterHandle

/-! ## Registered converters -/

/-- Whether a value that is lifted along a path has come by what the origin says. -/
def ConverterOrigin.Along (h : Hierarchy) (source target : TypeKey) (path : Path) :
    ConverterOrigin → Prop
  | direct => path = []
  | factory _ => False
  | superclass declaredFor depth =>
    declaredFor = source ∧ h.Ascends path ∧ path.length = depth
  | interface declaredFor _ => declaredFor = source ∧ h.Shortest source path target

namespace Registry

variable {r : Registry} {id : Nat} {target : TypeKey} {handle : ConverterHandle} {e : Registration}
  {path : Path}

/-- A handle for a registered converter whose values are lifted along a path of declared links from
    its type to the type asked for. -/
structure Lifted (r : Registry) (target : TypeKey) (handle : ConverterHandle) (e : Registration)
    (path : Path) (lift : Typed e.target → Typed target) : Prop where
  registered : e ∈ r.registrations
  id_eq : handle.id = e.id
  follows : r.hierarchy.Follows e.target path target
  origin : handle.origin.Along r.hierarchy e.target target path
  lifts : path.Lifts target lift
  run : ∀ text ctx, handle.run text ctx =
    (e.handle.run text ctx).andThen (.typeMismatch handle.name target) path.lift?

theorem lifted_handle (mem : e ∈ r.registrations) : r.Lifted e.target e.handle e [] fun v => v where
  registered := mem
  id_eq := rfl
  follows := .here
  origin := rfl
  lifts := .here
  run text ctx := (Conversion.map_andThen (e.convert text ctx) _ fun _ => rfl).symm

theorem lifted_inherit {a : Ancestor} (inherits : r.Inherits target e a) :
    ∃ lift, r.Lifted target (e.inherit a) e a.path lift := by
  obtain ⟨mem, listed, rfl⟩ := inherits
  have follows := Hierarchy.follows_of_mem_ancestors listed
  obtain ⟨lift, lifts⟩ := follows.lifts
  refine ⟨lift, mem, rfl, follows, ?_, lifts, fun _ _ => rfl⟩
  -- The path is made of declared links in any case; of which ones is told by the kind.
  cases kind : a.kind with
  | superclass depth =>
    obtain ⟨-, ascends, length⟩ := Hierarchy.path_of_superclass listed kind
    simpa only [Registration.inherit, ConverterHandle.derive, kind] using ⟨rfl, ascends, length⟩
  | interface rank =>
    have shortest := Hierarchy.path_of_interface listed kind
    simpa only [Registration.inherit, ConverterHandle.derive, kind] using ⟨rfl, shortest⟩

namespace Lifted

variable {lift : Typed e.target → Typed target}

theorem run_eq (l : r.Lifted target handle e path lift) (text : String) (ctx : ConversionContext) :
    handle.run text ctx = ((e.convert text ctx).map lift).map fun v : Typed target => v.val := by
  rw [l.run, Conversion.map_map]
  exact Conversion.map_andThen (e.convert text ctx) _ l.lifts.lift?_val

/-- The checks left out, the registered converter answers, and its value is lifted. -/
theorem relays (l : r.Lifted target handle e path lift) : handle.Relays e lift :=
  fun text ctx => ConverterHandle.convert_of_run (l.run_eq text ctx)

/-- Each link is given a value of the type from which it starts. -/
theorem given (l : r.Lifted target handle e path lift) {before after : Path} {step : Step}
    (split : path = before ++ step :: after) (v : Typed e.target) :
    ∃ w : Typed step.source, before.lift? v.val = some w.val := by
  obtain ⟨first, lifts⟩ := (split ▸ l.follows).before.lifts
  exact ⟨first v, lifts.lift?_val v⟩

end Lifted

/-! ## What is listed -/

theorem lifted_or_factory (mem : handle ∈ r.listing id target) :
    (∃ e path lift, r.Lifted target handle e path lift) ∨
      ∃ m, r.factoryFor? target = some m ∧ ConverterHandle.ofFactory id m = handle := by
  -- Both inherited parts are lists of registrations over their ancestors.
  have inherited {ps : List (Registration × Ancestor)} (within : ∀ p ∈ ps, r.Inherits target p.1 p.2)
      (mem : handle ∈ ps.map fun p => p.1.inherit p.2) :
      ∃ e path lift, r.Lifted target handle e path lift := by
    obtain ⟨p, among, rfl⟩ := List.mem_map.mp mem
    exact ⟨p.1, p.2.path, lifted_inherit (within p among)⟩
  rw [listing, List.append_assoc, List.mem_append, List.mem_append] at mem
  rcases mem with own | near | far
  · rcases mem_own_iff.mp own with ⟨e, registered, rfl, rfl⟩ | factory
    · exact .inl ⟨e, [], _, lifted_handle registered⟩
    · exact .inr factory
  · exact .inl (inherited (fun p among => (mem_near_iff.mp among).1) near)
  · exact .inl (inherited (fun p among => (mem_ranked_iff.mp among).1) far)

theorem Sound.lifted_or_factory (s : Sound r) (mem : handle ∈ (r.converters target).1) :
    (∃ e path lift, r.Lifted target handle e path lift) ∨
      ∃ id m, r.factoryFor? target = some m ∧ ConverterHandle.ofFactory id m = handle := by
  obtain ⟨id, -, answer⟩ := s.answer target
  rw [answer] at mem
  exact (Registry.lifted_or_factory mem).imp_right fun factory => ⟨id, factory⟩

theorem preferred_of_factoryFor? {m : FactoryMethod} (found : r.factoryFor? target = some m) :
    FactoryMethod.Preferred r.catalogue.factories target m := by
  unfold factoryFor? at found
  split at found
  · exact FactoryMethod.lookup_eq_some found
  · exact nomatch found

/-- **A listed converter answers what the one behind it answers, with the value lifted.** Take a
    registry after any calls, and a handle that it lists for a type. Behind it is one of two.

    * A registered converter with the same id, from whose type a path of declared links leads to the
      type asked for: of no links if it is registered for that type, of as many superclass links as
      the origin says, or to an interface. On any text and in any context the answer is that of the
      registered converter, be it nothing or an error, with the value lifted if there is one, and
      the same formats are noted. On the way each link is given a value of its type, and what comes
      out is of the type asked for.
    * A factory method that is declared for the type. On any text and in any context the answer is
      what is read off its product, and its one format is noted. If the method makes what its target
      says, then that is the product itself, a value of the type, or nothing when the text is
      refused, and no error. -/
theorem listed_converters_lift (catalogue : Catalogue) (calls : List Call) (target : TypeKey) :
    let r := (empty catalogue).after calls
    ∀ handle ∈ (r.converters target).1,
      (∃ e ∈ r.registrations, ∃ path : Path, ∃ lift : Typed e.target → Typed target,
        handle.id = e.id ∧
        r.hierarchy.Follows e.target path target ∧
        handle.origin.Along r.hierarchy e.target target path ∧
        path.Lifts target lift ∧
        handle.Relays e lift ∧
        (∀ text ctx, handle.run text ctx =
          (e.handle.run text ctx).andThen (.typeMismatch handle.name target) path.lift?) ∧
        (∀ v, path.lift? v.val = some (lift v).val) ∧
        (∀ before step after, path = before ++ step :: after → ∀ v : Typed e.target,
          ∃ w : Typed step.source, Path.lift? before v.val = some w.val) ∧
        ∀ text ctx v, (handle.run text ctx).outcome = .ok (some v) → v.type = target) ∨
      ∃ m ∈ catalogue.factories, m.target = target ∧ handle.origin = .factory m.name ∧
        (∀ text ctx, handle.convert target text ctx =
          (m.answer handle.name target text,
            ctx.announce (Conversion.tagged handle.name [m.name.text ++ "(String)"]))) ∧
        (m.MakesTarget → ∀ text ctx,
          (∀ v, (handle.run text ctx).outcome = .ok (some v) → v.type = target) ∧
          ∃ made : Option (Typed target), made.map Subtype.val = (m.invoke text).toOption ∧
            (handle.convert target text ctx).1 = .ok made) := by
  intro r handle mem
  rcases (sound_after catalogue calls).lifted_or_factory mem with
    ⟨e, path, lift, l⟩ | ⟨id, m, found, rfl⟩
  · exact .inl ⟨e, l.registered, path, lift, l.id_eq, l.follows, l.origin, l.lifts, l.relays, l.run,
      l.lifts.lift?_val, fun _ _ _ split => l.given split,
      fun text ctx v => ConverterHandle.type_of_run (l.run_eq text ctx)⟩
  · obtain ⟨declared, rfl, -⟩ := preferred_of_factoryFor? found
    rw [catalogue_after] at declared
    -- The exact answer is known for every method; only the last part needs the word of this one.
    refine .inr ⟨m, declared, rfl, rfl, fun text ctx => ConverterHandle.convert_ofFactory .., ?_⟩
    intro keeps text ctx
    refine ⟨fun v => ConverterHandle.type_of_makesTarget keeps, ?_⟩
    obtain ⟨made, products, answer⟩ := keeps.answer (ConverterHandle.ofFactory id m).name text
    exact ⟨made, products, (congrArg Prod.fst (ConverterHandle.convert_ofFactory ..)).trans answer⟩

/-- A class two links above the one that the converter makes, asked for a second time; and a factory
    method that makes what its target says. -/
theorem listed_converters_lift_two_classes_up :
    let a := Sample.type "" "PlugA"
    let c := Sample.type "" "PlugC"
    let token := Sample.type "" "Token"
    let catalogue := Sample.catalogue "classes" ""
    let r := (empty catalogue).after [.discover, .supports a]
    (∃ handle ∈ (r.converters a).1, handle.origin = .superclass c 2 ∧
      ∃ e ∈ r.registrations, e.target = c ∧
        ∃ path : Path, ∃ lift : Typed e.target → Typed a, r.hierarchy.Follows e.target path a ∧
          r.hierarchy.Ascends path ∧ path.length = 2 ∧ path.Lifts a lift ∧
          handle.Relays e lift) ∧
    ∃ handle ∈ (r.converters token).1, handle.origin = .factory .of ∧
      ∃ m ∈ catalogue.factories, m.target = token ∧ m.MakesTarget ∧
        ∀ text ctx, ∃ made : Option (Typed token), made.map Subtype.val = (m.invoke text).toOption ∧
          (handle.convert token text ctx).1 = .ok made := by
  intro a c token catalogue r
  refine ⟨?_, ?_⟩
  · have listed : (r.converters a).1.map ConverterHandle.origin = [.superclass c 2] := by
      decide +kernel
    have mem : .superclass c 2 ∈ (r.converters a).1.map ConverterHandle.origin :=
      listed ▸ List.mem_singleton.mpr rfl
    obtain ⟨handle, mem, origin⟩ := List.mem_map.mp mem
    refine ⟨handle, mem, origin, ?_⟩
    rcases listed_converters_lift catalogue [.discover, .supports a] a handle mem with
      ⟨e, registered, path, lift, -, follows, along, lifts, relays, -⟩ | ⟨m, -, -, factory, -⟩
    · rw [origin] at along
      obtain ⟨declaredFor, ascends, length⟩ := along
      exact ⟨e, registered, declaredFor.symm, path, lift, follows, ascends, length, lifts, relays⟩
    · exact nomatch origin.symm.trans factory
  · have listed : (r.converters token).1.map ConverterHandle.origin = [.factory .of] := by
      decide +kernel
    have mem : .factory .of ∈ (r.converters token).1.map ConverterHandle.origin :=
      listed ▸ List.mem_singleton.mpr rfl
    obtain ⟨handle, mem, origin⟩ := List.mem_map.mp mem
    refine ⟨handle, mem, origin, ?_⟩
    rcases listed_converters_lift catalogue [.discover, .supports a] token handle mem with
      ⟨e, -, path, lift, -, -, along, -⟩ | ⟨m, declared, target, -, -, answers⟩
    · rw [origin] at along
      exact along.elim
    · have keeps := Sample.makesTarget_of_mem_factories declared
      exact ⟨m, declared, target, keeps, fun text ctx => (answers keeps text ctx).2⟩

/-- **An interface is reached by as few links as possible.** Take any declarations and a type.

    * The path to an interface of the type is one of declared links, and no other path of declared
      links to it has fewer.
    * An interface of higher rank is not reached by fewer links.
    * A converter that a registry has inherited from the interface lifts its values along such a
      path, link by link. -/
theorem interfaces_lift_shortest (h : Hierarchy) (type : TypeKey) :
    (∀ a ∈ h.ancestors type, ∀ rank, a.kind = .interface rank → h.Shortest type a.path a.key) ∧
    (∀ a ∈ h.ancestors type, ∀ b ∈ h.ancestors type, ∀ i j, a.kind = .interface i →
      b.kind = .interface j → i ≤ j → a.path.length ≤ b.path.length) ∧
    ∀ catalogue calls target,
      let r := (empty catalogue).after calls
      r.hierarchy = h → ∀ handle ∈ (r.converters target).1, ∀ rank,
        handle.origin = .interface type rank →
        ∃ e ∈ r.registrations, handle.id = e.id ∧ e.target = type ∧
          ∃ path : Path, ∃ lift : Typed e.target → Typed target,
            h.Shortest e.target path target ∧ path.Lifts target lift ∧ handle.Relays e lift := by
  refine ⟨fun a mem rank kind => Hierarchy.path_of_interface mem kind,
    fun a ha b hb i j kindA kindB le => Hierarchy.length_le_of_rank_le ha hb kindA kindB le, ?_⟩
  rintro catalogue calls target r rfl handle mem rank origin
  rcases (sound_after catalogue calls).lifted_or_factory mem with
    ⟨e, path, lift, l⟩ | ⟨id, m, -, rfl⟩
  · have along := l.origin
    rw [origin] at along
    obtain ⟨rfl, shortest⟩ := along
    exact ⟨e, l.registered, l.id_eq, rfl, path, lift, shortest, l.lifts, l.relays⟩
  · exact nomatch origin

/-- `E` is an interface of `S`, the superclass of `A`, and of `D`, an interface of the interface
    `B`; and the declarations run in circles. -/
theorem interfaces_lift_shortest_in_circles :
    let t (name : String) : TypeKey := .named name
    let r := (empty ⟨[], []⟩).after [
      .declare (Traced.declaration (t "A") [(true, t "S"), (false, t "B")]),
      .declare (Traced.declaration (t "B") [(false, t "A"), (false, t "D")]),
      .declare (Traced.declaration (t "D") [(false, t "E")]),
      .declare (Traced.declaration (t "S") [(false, t "D"), (false, t "E"), (true, t "A")]),
      .register (t "A") "a" (Traced.converter (t "A") "a" [] "" .all)]
    (∃ a ∈ r.hierarchy.ancestors (t "A"), a.kind = .interface 2 ∧ a.path.length = 2 ∧
      r.hierarchy.Shortest (t "A") a.path (t "E")) ∧
    ∃ handle ∈ (r.converters (t "E")).1, handle.origin = .interface (t "A") 2 ∧
      ∃ e ∈ r.registrations, handle.id = e.id ∧ e.target = t "A" ∧
        ∃ path : Path, ∃ lift : Typed e.target → Typed (t "E"),
          r.hierarchy.Shortest e.target path (t "E") ∧ path.Lifts (t "E") lift ∧
          handle.Relays e lift := by
  intro t r
  obtain ⟨shortest, -, lifted⟩ := interfaces_lift_shortest r.hierarchy (t "A")
  refine ⟨?_, ?_⟩
  · have mem : (t "E", .interface 2, 2) ∈
        (r.hierarchy.ancestors (t "A")).map fun a => (a.key, a.kind, a.path.length) := by
      decide +kernel
    obtain ⟨a, listed, same⟩ := List.mem_map.mp mem
    obtain ⟨key, kind, length⟩ : a.key = t "E" ∧ a.kind = .interface 2 ∧ a.path.length = 2 := by
      simpa using same
    exact ⟨a, listed, kind, length, key ▸ shortest a listed 2 kind⟩
  · have mem : .interface (t "A") 2 ∈ (r.converters (t "E")).1.map ConverterHandle.origin := by
      decide +kernel
    obtain ⟨handle, listed, origin⟩ := List.mem_map.mp mem
    exact ⟨handle, listed, origin, lifted _ _ (t "E") rfl handle listed 2 origin⟩

end Registry

end LayeredConfig
