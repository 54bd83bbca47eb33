import DeliveryPipeline.Proofs.Classification.Composition
import DeliveryPipeline.Proofs.Extraction.Growth
import DeliveryPipeline.Proofs.Extraction.Origins

/-!
# Where new handlers are bound

A handler that is not recorded when it is made is bound to all targets of its descriptor, and stays
so unless a registration takes it out of the role tables. A handler that is recorded already, like a
shared one that was made before, keeps the targets that it was recorded with. So if registrations
only add handlers, each is recorded once, with the descriptor that it was first made from.
-/
namespace DeliveryPipeline

/-- A handler is listed with a descriptor in the role tables of every strategy that it supports,
under each of its roles, as the strategy takes them, and each of the targets. -/
def Classification.Binds (c : Classification) (h : Handler) (d : Descriptor)
    (targets : List String) : Prop :=
  ∀ s, h.capabilities.supports s = true → ∀ r ∈ h.capabilities.roles, ∀ target ∈ targets,
    ⟨h, d⟩ ∈ (c.tables s).handlers (r.under s) target

namespace Classification

variable {c c' : Classification} {h : Handler}

theorem binds_add (hnew : c.contains h.id = false) (d : Descriptor) (targets : List String) :
    (c.add h d targets).Binds h d targets := by
  intro s hs r hr target htarget
  have hplace : (r.under s, target) ∈ Entry.places ⟨h, d, targets⟩ s :=
    (Entry.mem_places_iff hs _ _).2 ⟨⟨r, hr, rfl⟩, htarget⟩
  exact mem_handlers_add hnew d hplace

theorem Binds.retained {d : Descriptor} {targets : List String} (hbinds : c.Binds h d targets)
    (hretains : c.Retains c') : c'.Binds h d targets :=
  fun s hs r hr target htarget => hretains _ _ _ _ (hbinds s hs r hr target htarget)

end Classification

namespace Workshop

variable {w : Workshop}

/-- The handler that is made at a visit takes nothing out of the role tables when it registers
others. -/
def RetainsAt (w : Workshop) (v : Visit) : Prop :=
  ∀ made, w.madeAt v = some made →
    (v.before.classification.add made.handler v.item.descriptor v.item.targets).Retains
      (w.classifiedAt v)

theorem retainsAt_of_onlyAdds (hadds : w.factories.OnlyAdds) (v : Visit) : w.RetainsAt v :=
  fun _ hmade => (grows_registered hadds hmade).retains

section Visit

variable {n : Nat} {v : Visit} {x' : Extraction} {items : List WorkItem} {made : Creation}

/-- A visit binds a handler that was not recorded before. -/
theorem binds_of_visit (h : w.visit n v.item v.before = .ok (x', items)) (hretains : w.RetainsAt v)
    (hmade : w.madeAt v = some made)
    (hnew : v.before.classification.contains made.handler.id = false) :
    x'.classification.Binds made.handler v.item.descriptor v.item.targets := by
  rw [classification_of_visit h]
  exact (Classification.binds_add hnew _ _).retained (hretains made hmade)

theorem retains_of_visit (h : w.visit n v.item v.before = .ok (x', items))
    (hretains : w.RetainsAt v) : v.before.classification.Retains x'.classification := by
  rw [classification_of_visit h]
  cases hmade : w.madeAt v with
  | none =>
    rw [classifiedAt, hmade]
    exact fun _ _ _ _ hb => hb
  | some made =>
    exact Classification.Retains.trans (Classification.retains_add _ _ _ _) (hretains made hmade)

end Visit

section Run

variable {t : DescriptorTable} {x : Extraction} {v : Visit} {made : Creation}

/-- If registrations only add handlers, the classification is coherent before each visit, and grows
from there to what it is at the end. -/
theorem grows_around_visit (hadds : w.factories.OnlyAdds) (h : w.extract t = .ok x)
    (hv : v ∈ w.visits t) : v.before.classification.Coherent ∧
      (w.classifiedAt v).Grows x.classification := by
  have hcoherent : ∀ u ∈ w.visits t, u.before.classification.Coherent := by
    have hrun := proceed_induction (P := fun _ visits y => y.classification.Coherent →
      ∀ u ∈ visits, u.before.classification.Coherent) h (by simp)
    refine hrun ?_ Classification.coherent_empty
    intro n item later y y' items visits hvisit ih hy
    exact List.forall_mem_cons.2 ⟨hy, ih ((grows_of_visit hadds hvisit).coherent hy)⟩
  refine ⟨hcoherent v hv, ?_⟩
  refine holds_of_visited (Q := fun v x => (w.classifiedAt v).Grows x.classification) ?_ ?_ h hv
  · intro u n x' items _ hvisit
    rw [classification_of_visit hvisit]
    exact .refl
  · intro v u n x' items _ hvisit hgrows
    exact hgrows.trans (grows_of_visit hadds hvisit)

/-- If registrations only add handlers, of each handler that is made one thing is recorded: what was
recorded before, and else the descriptor that it is made from. -/
theorem exists_bindingsOf_eq (hadds : w.factories.OnlyAdds) (h : w.extract t = .ok x)
    (hv : v ∈ w.visits t) (hmade : w.madeAt v = some made) :
    let known := v.before.classification.contains made.handler.id
    ∃ b, x.classification.bindingsOf made.handler.id = [b] ∧
      (known = false → b = ⟨made.handler, v.item.descriptor⟩) ∧
      (known = true → v.before.classification.bindingsOf made.handler.id = [b]) := by
  intro known
  obtain ⟨hcoherent, hlater⟩ := grows_around_visit hadds h hv
  have hrest := (grows_registered hadds hmade).trans hlater
  have hadded := hcoherent.add made.handler v.item.descriptor v.item.targets
  cases hknown : known with
  | false =>
    have hnew := Classification.mem_bindings_add_of_new hknown v.item.descriptor v.item.targets
    exact ⟨_, hrest.bindingsOf_eq hadded hnew, fun _ => rfl, by simp⟩
  | true =>
    rw [Classification.contains_iff, ← Classification.map_id_bindings, List.mem_map] at hknown
    obtain ⟨b, hb, hid⟩ := hknown
    rw [← hid]
    exact ⟨b, hrest.bindingsOf_eq hadded (Classification.mem_bindings_add hb ..), by simp,
      fun _ => hcoherent.bindingsOf_eq hb⟩

/-- When extraction succeeds and no registration takes anything out of the role tables, a handler
that was not recorded when it was made is bound to all targets of its descriptor. If registrations
only add handlers, a handler is recorded once, with the descriptor that it was first recorded with:
this one, unless it was recorded before. -/
theorem binds_of_new (h : w.extract t = .ok x) (hretains : ∀ u ∈ w.visits t, w.RetainsAt u)
    (hv : v ∈ w.visits t) (hmade : w.madeAt v = some made) :
    let known := v.before.classification.contains made.handler.id
    v.item.Aimed w t ∧
    (known = false → x.classification.Binds made.handler v.item.descriptor v.item.targets) ∧
    (w.factories.OnlyAdds → ∃ b, x.classification.bindingsOf made.handler.id = [b] ∧
      (known = false → b = ⟨made.handler, v.item.descriptor⟩) ∧
      (known = true → v.before.classification.bindingsOf made.handler.id = [b])) := by
  intro known
  refine ⟨aimed_of_visits hv, fun hnew => ?_, fun hadds => exists_bindingsOf_eq hadds h hv hmade⟩
  refine holds_of_visited (Q := fun v x => ∀ made, w.madeAt v = some made →
    v.before.classification.contains made.handler.id = false →
      x.classification.Binds made.handler v.item.descriptor v.item.targets)
    ?_ ?_ h hv made hmade hnew
  · intro u n x' items hu hvisit made hmade hnew
    exact binds_of_visit hvisit (hretains u hu) hmade hnew
  · intro v u n x' items hu hvisit hbinds made hmade hnew
    exact (hbinds made hmade hnew).retained (retains_of_visit hvisit (hretains u hu))

end Run

/-- A tree handler that serializes. -/
def treeSerializer (id : HandlerId) : Handler :=
  ⟨id, "serializer", (Capabilities.empty.addStrategy .tree).addRole .serialize⟩

/-- A factory that always hands out the same handler. -/
def sharedFactory : Factory where
  name := "shared"
  create _ _ := .ok { handler := treeSerializer (.given 0) }

/-- A factory of handlers that register another one and yield a descriptor of the shared one. -/
def registrarFactory : Factory where
  name := "registrar"
  create fresh d := .ok {
    handler := ⟨fresh, "registrar",
      { Capabilities.empty with selfExpanding := true, selfRegistering := true }⟩
    yields := [{ selector := "em", declaredType := some "shared" }]
    register := fun c => c.add (treeSerializer (.given 1)) d ["p"] }

/-- A factory of handlers that clear the classification. -/
def clearingFactory : Factory where
  name := "clearing"
  create fresh _ := .ok {
    handler := ⟨fresh, "clearing", { Capabilities.empty with selfRegistering := true }⟩
    register := fun _ => {} }

def sharingWorkshop : Workshop where
  factories := (FactoryRegistry.builtin.register "shared" sharedFactory).register "registrar"
    registrarFactory
  profiles := ⟨"html", []⟩

/-- The shared handler is yielded for one element and bound to another one. -/
def sharingTable : DescriptorTable :=
  .ofPairs [("p", { selector := "p", declaredType := some "registrar" }),
    ("b", { selector := "b", declaredType := some "shared" })]

/-- The sharing workshop, in which a handler may clear the classification too. -/
def clearingWorkshop : Workshop :=
  { sharingWorkshop with
    factories := sharingWorkshop.factories.register "clearing" clearingFactory }

/-- The shared handler stands before one that clears the classification. -/
def clearingTable : DescriptorTable :=
  .ofPairs [("p", { selector := "p", declaredType := some "shared" }),
    ("b", { selector := "b", declaredType := some "clearing" })]

theorem onlyAdds_sharingWorkshop : sharingWorkshop.factories.OnlyAdds := by
  apply FactoryRegistry.OnlyAdds.register
  · apply FactoryRegistry.onlyAdds_builtin.register
    intro fresh d made hmade hself c
    cases hmade
    cases hself
  · intro fresh d made hmade _ c
    cases hmade
    exact Classification.grows_add ..

/-- The shared handler is new where it is yielded, and bound there. It is recorded with this
descriptor alone, although it is made a second time. -/
theorem binds_shared_where_yielded :
    ∃ x, sharingWorkshop.extract sharingTable = .ok x ∧
      ∃ v ∈ sharingWorkshop.visits sharingTable, v.item.targets = ["em"] ∧
        ∃ made, sharingWorkshop.madeAt v = some made ∧ made.handler = treeSerializer (.given 0) ∧
          x.classification.Binds made.handler v.item.descriptor v.item.targets ∧
          x.classification.bindingsOf (.given 0) = [⟨made.handler, v.item.descriptor⟩] := by
  have hok : (sharingWorkshop.extract sharingTable).toOption.isSome = true := by decide +kernel
  have hnew : ∃ v ∈ sharingWorkshop.visits sharingTable, v.item.targets = ["em"] ∧
      (sharingWorkshop.madeAt v).map (·.handler) = some (treeSerializer (.given 0)) ∧
      v.before.classification.contains (.given 0) = false := by
    decide +kernel
  obtain ⟨x, hextract⟩ := Error.isSome_toOption_iff.1 hok
  obtain ⟨v, hv, htargets, hhandler, hnew⟩ := hnew
  obtain ⟨made, hmade, hhandler⟩ := Option.map_eq_some_iff.1 hhandler
  have hid : made.handler.id = .given 0 := by
    rw [hhandler]
    rfl
  obtain ⟨-, hbinds, hrecorded⟩ := binds_of_new hextract
    (fun u _ => retainsAt_of_onlyAdds onlyAdds_sharingWorkshop u) hv hmade
  rw [hid] at hbinds hrecorded
  obtain ⟨b, hb, hfirst, -⟩ := hrecorded onlyAdds_sharingWorkshop
  rw [hfirst hnew] at hb
  exact ⟨x, hextract, v, hv, htargets, made, hmade, hhandler, hbinds hnew, hb⟩

/-- All handlers that are made are bound to all targets of their descriptors. -/
def BindsAll (w : Workshop) (t : DescriptorTable) : Prop :=
  ∀ x, w.extract t = .ok x → ∀ v ∈ w.visits t, ∀ made, w.madeAt v = some made →
    x.classification.Binds made.handler v.item.descriptor v.item.targets

theorem not_bindsAll {w : Workshop} {t : DescriptorTable} (id : HandlerId) (target : String)
    (hmade : ∃ v ∈ w.visits t, v.item.targets = [target] ∧
      (w.madeAt v).map (·.handler) = some (treeSerializer id))
    (hlist : (w.extract t).toOption.map (fun x =>
      (x.classification.tables .tree).handlers .serialize target) = some []) : ¬ w.BindsAll t := by
  intro hall
  obtain ⟨v, hv, htargets, hhandler⟩ := hmade
  obtain ⟨made, hmade, hhandler⟩ := Option.map_eq_some_iff.1 hhandler
  cases hextract : w.extract t with
  | error e => simp [hextract, Except.toOption] at hlist
  | ok x =>
    have hbinds := hall x hextract v hv made hmade
    rw [hhandler, htargets] at hbinds
    have hmem := hbinds .tree rfl .serialize List.mem_cons_self target List.mem_cons_self
    simp only [hextract, Except.toOption, Option.map_some, Option.some.injEq] at hlist
    simp [Role.under, hlist] at hmem

/-- A shared handler is not bound again, and a registration may clear the role tables. -/
theorem not_bindsAll_shared_or_cleared :
    ¬ sharingWorkshop.BindsAll sharingTable ∧ ¬ clearingWorkshop.BindsAll clearingTable := by
  constructor
  · exact not_bindsAll (.given 0) "b" (by decide +kernel) (by decide +kernel)
  · exact not_bindsAll (.given 0) "p" (by decide +kernel) (by decide +kernel)

end Workshop

end DeliveryPipeline
