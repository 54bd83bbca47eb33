import DeliveryPipeline.Proofs.Classification.Placement
import DeliveryPipeline.Proofs.Classification.Support
import Mathlib.Data.Multiset.Basic

/-!
# What the strategy depends on

Resolution counts the handlers that support a strategy, but all that matters is which strategies
suit all of them. If both do, the request decides, if one does, a request can only spoil it, and if
none does, there is no strategy. What suits all handlers can be told from the strategies that each
of them supports, in whatever order they were added and to whatever targets they are bound.
-/
namespace DeliveryPipeline

/-- An error without its cause. -/
inductive Error.Kind where
  | configuration
  | ambiguousConfiguration
  | invalidOverride
  | factory
  | listener
  | parse
  | io
deriving DecidableEq

def Error.kind : Error → Error.Kind
  | configuration _ => .configuration
  | ambiguousConfiguration _ => .ambiguousConfiguration
  | invalidOverride _ => .invalidOverride
  | factory _ _ => .factory
  | listener _ => .listener
  | parse _ => .parse
  | io _ _ => .io

namespace Classification

variable {c c' : Classification} {requested : Option Strategy} {s : Strategy}

/-- Every classified handler supports the strategy. -/
def Suits (c : Classification) (s : Strategy) : Prop :=
  ∀ e ∈ c.entries, e.handler.capabilities.supports s = true

/-- The strategies that each classified handler supports, in no order. -/
def modes (c : Classification) : Multiset (Strategy → Bool) :=
  c.entries.map fun e => e.handler.capabilities.supports

/-- How resolution ends: with a strategy, or with an error of some kind. -/
def outcome (c : Classification) (requested : Option Strategy) : Except Error.Kind Strategy :=
  (c.resolve requested).mapError Error.kind

section Cases

theorem resolve_of_suits_all (h : ∀ s, c.Suits s) :
    c.resolve requested = .ok (requested.getD .stream) := by
  rw [resolve, (allSupport_iff c .stream).2 (h .stream), (allSupport_iff c .tree).2 (h .tree)]

theorem resolve_of_suits_only {only other : Strategy} (honly : c.Suits only)
    (hother : ¬ c.Suits other) : c.resolve requested = onlyStrategy only requested := by
  have hyes : c.allSupport only = true := (allSupport_iff c only).2 honly
  have hno : c.allSupport other = false := by
    rw [← Bool.not_eq_true, allSupport_iff]
    exact hother
  cases only <;> cases other
  · exact absurd honly hother
  · rw [resolve, hyes, hno]
  · rw [resolve, hyes, hno]
  · exact absurd honly hother

theorem resolve_of_suits_none (requested : Option Strategy) (h : ∀ s, ¬ c.Suits s) :
    ∃ cause, c.resolve requested = .error (.ambiguousConfiguration cause) := by
  have hno (s : Strategy) : c.allSupport s = false := by
    rw [← Bool.not_eq_true, allSupport_iff]
    exact h s
  rw [resolve, hno .stream, hno .tree]
  exact ⟨_, rfl⟩

/-- Both strategies suit the handlers, or one of them, or none. -/
theorem suits_cases (c : Classification) : (∀ s, c.Suits s) ∨
    (∃ only other, c.Suits only ∧ ¬ c.Suits other) ∨ ∀ s, ¬ c.Suits s := by
  by_cases hall : ∀ s, c.Suits s
  · exact .inl hall
  · by_cases hnone : ∀ s, ¬ c.Suits s
    · exact .inr (.inr hnone)
    · push Not at hall hnone
      obtain ⟨other, hother⟩ := hall
      obtain ⟨only, honly⟩ := hnone
      exact .inr (.inl ⟨only, other, honly, hother⟩)

/-- A strategy that is the only one is taken, unless the other one is requested. -/
theorem onlyStrategy_cases (only : Strategy) (requested : Option Strategy) :
    (onlyStrategy only requested = .ok only ∧ ∀ other, requested = some other → other = only) ∨
    ∃ other, other ≠ only ∧ requested = some other ∧
      onlyStrategy only requested = .error (.invalidOverride (.unsupported other only)) := by
  cases requested with
  | none => exact .inl ⟨rfl, by simp⟩
  | some other =>
    by_cases hother : other = only
    · exact .inl ⟨if_pos hother, by simpa using hother⟩
    · exact .inr ⟨other, hother, rfl, if_neg hother⟩

end Cases

section Errors

theorem exists_ambiguousConfiguration_iff :
    (∃ cause, c.resolve requested = .error (.ambiguousConfiguration cause)) ↔
      ∀ s, ¬ c.Suits s := by
  rcases c.suits_cases with hall | ⟨only, other, honly, hother⟩ | hnone
  · rw [resolve_of_suits_all hall]
    exact iff_of_false (by simp) fun h => h .stream (hall .stream)
  · rw [resolve_of_suits_only honly hother]
    refine iff_of_false ?_ fun h => h only honly
    rcases onlyStrategy_cases only requested with ⟨hok, -⟩ | ⟨_, -, -, herror⟩
    · simp [hok]
    · simp [herror]
  · exact iff_of_true (resolve_of_suits_none requested hnone) hnone

theorem exists_invalidOverride_iff :
    (∃ cause, c.resolve requested = .error (.invalidOverride cause)) ↔
      ∃ only other, c.Suits only ∧ ¬ c.Suits other ∧ requested = some other := by
  rcases c.suits_cases with hall | ⟨only, other, honly, hother⟩ | hnone
  · rw [resolve_of_suits_all hall]
    refine iff_of_false (by simp) ?_
    rintro ⟨-, other, -, hother, -⟩
    exact hother (hall other)
  · rw [resolve_of_suits_only honly hother]
    rcases onlyStrategy_cases only requested with ⟨hok, htaken⟩ | ⟨asked, hne, hasked, herror⟩
    · refine iff_of_false (by simp [hok]) ?_
      rintro ⟨-, asked, -, hunsuited, hasked⟩
      rw [htaken asked hasked] at hunsuited
      exact hunsuited honly
    · -- of the two strategies, the one requested is the one that does not suit
      have hsame : asked = other := by
        cases asked <;> cases only <;> cases other <;> simp_all
      exact iff_of_true ⟨_, herror⟩ ⟨only, other, honly, hother, hsame ▸ hasked⟩
  · obtain ⟨cause, hcause⟩ := resolve_of_suits_none requested hnone
    rw [hcause]
    refine iff_of_false (by simp) ?_
    rintro ⟨only, -, honly, -⟩
    exact hnone only honly

/-- No other error ends resolution. -/
theorem kind_of_resolve {e : Error} (h : c.resolve requested = .error e) :
    e.kind = .ambiguousConfiguration ∨ e.kind = .invalidOverride := by
  rcases c.suits_cases with hall | ⟨only, other, honly, hother⟩ | hnone
  · rw [resolve_of_suits_all hall] at h
    cases h
  · rw [resolve_of_suits_only honly hother] at h
    rcases onlyStrategy_cases only requested with ⟨hok, -⟩ | ⟨_, -, -, herror⟩
    · rw [hok] at h
      cases h
    · rw [herror] at h
      cases h
      exact .inr rfl
  · obtain ⟨cause, hcause⟩ := resolve_of_suits_none requested hnone
    rw [hcause] at h
    cases h
    exact .inl rfl

end Errors

section Modes

theorem suits_iff_modes : c.Suits s ↔ ∀ m ∈ c.modes, m s = true := by
  simp [Suits, modes]

/-- Resolution ends alike for handlers that the same strategies suit. -/
theorem outcome_eq_of_suits (h : ∀ s, c.Suits s ↔ c'.Suits s) :
    c.outcome requested = c'.outcome requested := by
  unfold outcome
  rcases c.suits_cases with hall | ⟨only, other, honly, hother⟩ | hnone
  · rw [resolve_of_suits_all hall, resolve_of_suits_all fun s => (h s).1 (hall s)]
  · rw [resolve_of_suits_only honly hother,
      resolve_of_suits_only ((h only).1 honly) fun hsuits => hother ((h other).2 hsuits)]
  · obtain ⟨cause, hcause⟩ := resolve_of_suits_none requested hnone
    obtain ⟨cause', hcause'⟩ := resolve_of_suits_none requested
      fun s hsuits => hnone s ((h s).2 hsuits)
    rw [hcause, hcause']
    rfl

theorem modes_le_add (c : Classification) (h : Handler) (d : Descriptor) (targets : List String) :
    c.modes ≤ (c.add h d targets).modes := by
  unfold modes
  rcases add_cases c h d targets with ⟨hentries, -⟩ | ⟨hentries, -⟩
  · rw [hentries]
  · rw [hentries, List.map_append]
    exact Multiset.coe_le.2 (List.sublist_append_left ..).subperm

theorem modes_le_merge (c other : Classification) : c.modes ≤ (c.merge other).modes := by
  apply (grows_merge c other).keeps (I := fun c' => c.modes ≤ c'.modes)
  · exact le_rfl
  · intro c' h d targets hle
    exact hle.trans (modes_le_add c' h d targets)

end Modes

/-- The resolved strategy suits all classified handlers. Resolution fails as ambiguous exactly if no
strategy does, whatever is requested, and for the request exactly if it is for the strategy that
does not while the other one does; there are no other errors. If both suit, the request is met, or a
stream taken. How it ends depends on the strategies that each of the handlers supports and on
nothing else. More handlers, by an addition or a merge, never bring back a strategy that does not
suit. -/
theorem resolve_by_modes (c : Classification) (requested : Option Strategy) :
    (∀ s, c.resolve requested = .ok s → c.Suits s) ∧
    ((∃ cause, c.resolve requested = .error (.ambiguousConfiguration cause)) ↔
      ∀ s, ¬ c.Suits s) ∧
    ((∃ cause, c.resolve requested = .error (.invalidOverride cause)) ↔
      ∃ only other, c.Suits only ∧ ¬ c.Suits other ∧ requested = some other) ∧
    (∀ e, c.resolve requested = .error e →
      e.kind = .ambiguousConfiguration ∨ e.kind = .invalidOverride) ∧
    ((∀ s, c.Suits s) → c.resolve requested = .ok (requested.getD .stream)) ∧
    (∀ c' : Classification, c'.modes = c.modes → c'.outcome requested = c.outcome requested) ∧
    (∀ s, ¬ c.Suits s → ∀ c' : Classification, c.modes ≤ c'.modes →
      ∀ requested', c'.resolve requested' ≠ .ok s) ∧
    (∀ h d targets, c.modes ≤ (c.add h d targets).modes) ∧
    (∀ other, c.modes ≤ (c.merge other).modes) ∧
    ∀ p, (c.sort p).modes = c.modes := by
  refine ⟨fun s => supports_of_resolve, exists_ambiguousConfiguration_iff,
    exists_invalidOverride_iff, fun e => kind_of_resolve, resolve_of_suits_all, ?_, ?_,
    modes_le_add c, modes_le_merge c, fun p => rfl⟩
  · intro c' hmodes
    apply outcome_eq_of_suits
    intro s
    rw [suits_iff_modes, suits_iff_modes, hmodes]
  · intro s hnot c' hle requested' hok
    apply hnot
    rw [suits_iff_modes]
    intro m hm
    exact suits_iff_modes.1 (supports_of_resolve hok) m (Multiset.mem_of_le hle hm)

/-- A serializer for both strategies, and one that needs the tree. -/
def treeBound : Classification :=
  let serializer (id : HandlerId) (modes : List Strategy) : Handler :=
    ⟨id, "serializer", (modes.foldl Capabilities.addStrategy .empty).addRole .serialize⟩
  (({} : Classification).add (serializer (.given 0) [.stream, .tree]) { selector := "p" } ["p"]).add
    (serializer (.given 1) [.tree]) { selector := "b" } ["b"]

/-- A stream is refused to the one that needs the tree, and stays so whatever is added. -/
theorem stream_refused_for_treeBound :
    (∃ cause, treeBound.resolve (some .stream) = .error (.invalidOverride cause)) ∧
      ∀ other requested, (treeBound.merge other).resolve requested ≠ .ok .stream := by
  have htree : treeBound.Suits .tree := (allSupport_iff _ _).1 (by decide +kernel)
  have hstream : ¬ treeBound.Suits .stream := by
    unfold Suits
    rw [← allSupport_iff]
    decide +kernel
  obtain ⟨-, -, hrefused, -, -, -, hnever, -, hmerge, -⟩ :=
    resolve_by_modes treeBound (some .stream)
  exact ⟨hrefused.2 ⟨.tree, .stream, htree, hstream, rfl⟩,
    fun other => hnever .stream hstream _ (hmerge other)⟩

end Classification

end DeliveryPipeline
