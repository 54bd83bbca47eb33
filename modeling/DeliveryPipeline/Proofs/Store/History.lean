import DeliveryPipeline.Proofs.Profile.Expression
import DeliveryPipeline.Store.History

/-!
# What a store gives after any history

A store holds what was stored since it was last replaced, in the order in which it was declared, and
repeats as often as they were declared. A text that is not read has declared nothing. From what it
holds, a store gives what applies, so it gives no less for one more sub-profile.
-/
namespace DeliveryPipeline.Store

/-- What is declared by filling a store. -/
def Filling.declares : Filling → List Descriptor
  | .add d => [d]
  | .extend ds | .replace ds => ds
  | .extendFromText text => (parseResources text).toOption.getD []

def Filling.replaces : Filling → Bool
  | .replace _ => true
  | _ => false

/-- A history from the last replacement on, and all of it if nothing is replaced. -/
def sinceReplaced : List Filling → List Filling
  | [] => []
  | f :: rest => if rest.any Filling.replaces then sinceReplaced rest else f :: rest

section Fill

variable {s : Store} {f : Filling} {text : String} {e : Error}

/-- A text that is not read changes nothing. -/
theorem fill_of_unread (h : parseResources text = .error e) :
    s.fill (.extendFromText text) = (s, some e) := by
  rw [fill, extendFromText, h]
  rfl

theorem stored_fill : (s.fill f).1.stored =
    (if f.replaces then [] else s.stored) ++ f.declares := by
  cases f with
  | extendFromText text =>
    cases hread : parseResources text with
    | error e =>
      simp [fill_of_unread hread, Filling.declares, Filling.replaces, hread, Except.toOption]
    | ok ds =>
      rw [fill, extendFromText, Filling.declares, hread]
      rfl
  | _ => rfl

end Fill

theorem sinceReplaced_eq_self {history : List Filling}
    (h : history.any Filling.replaces = false) : sinceReplaced history = history := by
  cases history with
  | nil => rfl
  | cons f rest =>
    rw [List.any_cons, Bool.or_eq_false_iff] at h
    rw [sinceReplaced, h.2]
    rfl

theorem stored_foldl_fill (history : List Filling) (s : Store) :
    (history.foldl (fun s f => (s.fill f).1) s).stored =
      (if history.any Filling.replaces then [] else s.stored) ++
        (sinceReplaced history).flatMap Filling.declares := by
  induction history generalizing s with
  | nil => simp [sinceReplaced]
  | cons f rest ih =>
    rw [List.foldl_cons, ih, sinceReplaced, List.any_cons]
    -- a replacement later on drops what is held now, and this filling with it
    cases hrest : rest.any Filling.replaces with
    | true => simp
    | false => simp [stored_fill, sinceReplaced_eq_self hrest]

theorem stored_after (history : List Filling) :
    (after history).stored = (sinceReplaced history).flatMap Filling.declares := by
  rw [after, stored_foldl_fill]
  split <;> rfl

/-- One more sub-profile takes nothing away, and changes no order. -/
theorem descriptors_sublist_addSubProfile (s : Store) (p : ProfileSet) (name : String) :
    (s.descriptors p).Sublist (s.descriptors (p.addSubProfile name)) :=
  List.monotone_filter_right _ fun _ happlies =>
    ProfileExpression.appliesTo_addSubProfile happlies name

/-- After any history a store gives what was stored since the last replacement and applies, in the
order of declaration and with all repeats. A text that is not read changes nothing. One more
sub-profile takes nothing away. Whether an expression applies, and how specific it is, is told by
the names in its text. -/
theorem descriptors_after (history : List Filling) (p : ProfileSet) :
    (after history).descriptors p = ((sinceReplaced history).flatMap Filling.declares).filter
      (fun d => d.profileExpression.appliesTo p) ∧
    (∀ text e, parseResources text = .error e →
      (after history).fill (.extendFromText text) = (after history, some e)) ∧
    (∀ name, ((after history).descriptors p).Sublist
      ((after history).descriptors (p.addSubProfile name))) ∧
    ∀ raw,
      (ProfileExpression.parse raw = .universal ↔ ProfileExpression.IsUniversal raw) ∧
      ((ProfileExpression.parse raw).specificity p = 2 ↔
        ¬ ProfileExpression.IsUniversal raw ∧ ProfileExpression.Names raw p.base) ∧
      ((ProfileExpression.parse raw).specificity p = 1 ↔
        ¬ ProfileExpression.IsUniversal raw ∧ ¬ ProfileExpression.Names raw p.base ∧
          ∃ name ∈ p.subProfiles, ProfileExpression.Names raw name) ∧
      ((ProfileExpression.parse raw).appliesTo p = true ↔
        0 < (ProfileExpression.parse raw).specificity p ∨ ProfileExpression.IsUniversal raw) := by
  refine ⟨?_, fun text e => fill_of_unread, descriptors_sublist_addSubProfile _ p, fun raw => ?_⟩
  · rw [descriptors, stored_after]
  · exact ⟨ProfileExpression.parse_eq_universal_iff, ProfileExpression.specificity_eq_two_iff,
      ProfileExpression.specificity_eq_one_iff, ProfileExpression.appliesTo_iff⟩

/-- A descriptor of the page with the given profiles. -/
def pageFor (profile : String) : Descriptor := { selector := "page", profile := profile }

/-- A store that is filled, replaced and extended, also from two texts, of which the first is not
read. -/
def pages : List Filling :=
  [.add (pageFor ""), .replace [pageFor " wml,", pageFor "html"], .extendFromText "=",
    .extend [pageFor "html"],
    .extendFromText "[[resource]]\nselector=\"page\"\nprofile=\"wml\""]

/-- The replacement drops the first page, and the text that is not read declares none. A phone that
is also a browser gets the pages of both. -/
theorem pages_for_phone :
    (after pages).descriptors ⟨"wml", []⟩ = [pageFor " wml,", pageFor "wml"] ∧
    (after pages).descriptors ⟨"wml", ["html"]⟩ =
      [pageFor " wml,", pageFor "html", pageFor "html", pageFor "wml"] ∧
    (after pages).fill (.extendFromText "=") =
      (after pages, some (.parse (.resources (.unexpected "a key" 1)))) := by
  have hunread : parseResources "=" = .error (.parse (.resources (.unexpected "a key" 1))) := by
    decide +kernel
  obtain ⟨hphone, hunchanged, -⟩ := descriptors_after pages ⟨"wml", []⟩
  obtain ⟨hboth, -⟩ := descriptors_after pages ⟨"wml", ["html"]⟩
  refine ⟨?_, ?_, hunchanged _ _ hunread⟩
  · exact hphone.trans (by decide +kernel)
  · exact hboth.trans (by decide +kernel)

end DeliveryPipeline.Store
