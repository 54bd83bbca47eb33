import DeliveryPipeline.Proofs.FirstOccurrences
import DeliveryPipeline.Proofs.Text.Pieces
import Mathlib.Logic.Relation

/-!
# Wordings of a comma list

A comma list may be worded in other ways: an item in another ASCII case or with other blanks around
it, a blank item put in, an item said again, and in some lists the items in another order. All
wordings list the same items, and unless they are reordered they mention them first in the same
order.
-/
namespace DeliveryPipeline.Text

/-- The item that a piece of a comma list is, in lower case. -/
def pieceKey (piece : List Char) : String :=
  (String.ofList (trimChars piece)).toLower

/-- The items of the pieces in lower case, without the blank ones. -/
def pieceKeys (pieces : List (List Char)) : List String :=
  (pieces.map pieceKey).filter (· ≠ "")

/-- A comma list is worded otherwise at one place. -/
inductive Rewords (reorders : Prop) : List (List Char) → List (List Char) → Prop
  /-- A piece is written in another ASCII case or with other blanks around it. -/
  | respell (before after : List (List Char)) {piece piece' : List Char}
    (hsame : pieceKey piece = pieceKey piece') :
    Rewords reorders (before ++ piece :: after) (before ++ piece' :: after)
  | blank (before after : List (List Char)) {piece : List Char}
    (hblank : ∀ c ∈ piece, isBlank c = true) :
    Rewords reorders (before ++ after) (before ++ piece :: after)
  /-- A piece is said again later. -/
  | again (before between after : List (List Char)) (piece : List Char) :
    Rewords reorders (before ++ piece :: between ++ after)
      (before ++ piece :: between ++ piece :: after)
  | reorder (h : reorders) {pieces pieces' : List (List Char)} (hperm : pieces.Perm pieces') :
    Rewords reorders pieces pieces'

/-- The two texts are wordings of one comma list. -/
def SameList (reorders : Prop) (s s' : String) : Prop :=
  Relation.EqvGen (Rewords reorders) (s.toList.splitOnP (· == ',')) (s'.toList.splitOnP (· == ','))

section Keys

variable {reorders : Prop} {pieces pieces' : List (List Char)} {s s' : String}

theorem map_toLower_commaList (s : String) :
    (commaList s).map String.toLower = pieceKeys (s.toList.splitOnP (· == ',')) := by
  rw [commaList, pieceKeys]
  induction s.toList.splitOnP (· == ',') with
  | nil => rfl
  | cons piece pieces ih =>
    by_cases h : trimChars piece = [] <;> simp [pieceKey, h, ih, toLower_eq_empty_iff]

theorem pieceKeys_append (pieces pieces' : List (List Char)) :
    pieceKeys (pieces ++ pieces') = pieceKeys pieces ++ pieceKeys pieces' := by
  rw [pieceKeys, List.map_append, List.filter_append, pieceKeys, pieceKeys]

theorem pieceKeys_cons (piece : List Char) (pieces : List (List Char)) :
    pieceKeys (piece :: pieces) = pieceKeys [piece] ++ pieceKeys pieces :=
  pieceKeys_append [piece] pieces

theorem pieceKeys_blank {piece : List Char} (h : ∀ c ∈ piece, isBlank c = true) :
    pieceKeys [piece] = [] := by
  simp [pieceKeys, pieceKey, trimChars_eq_nil_iff.2 h, toLower_eq_empty_iff]

/-- A list that is worded otherwise mentions the same items first, unless it is reordered. -/
theorem Rewords.eraseDups_or_perm (h : Rewords reorders pieces pieces') :
    (pieceKeys pieces).eraseDups = (pieceKeys pieces').eraseDups ∨
      reorders ∧ (pieceKeys pieces).Perm (pieceKeys pieces') := by
  cases h with
  | @respell before after piece piece' hsame =>
    have hkeys : pieceKeys [piece] = pieceKeys [piece'] := by simp [pieceKeys, hsame]
    rw [pieceKeys_append, pieceKeys_cons, hkeys, ← pieceKeys_cons, ← pieceKeys_append]
    exact .inl rfl
  | @blank before after piece hblank =>
    rw [pieceKeys_append before (piece :: after), pieceKeys_cons, pieceKeys_blank hblank,
      List.nil_append, ← pieceKeys_append]
    exact .inl rfl
  | again before between after piece =>
    have hsaid : pieceKeys [piece] ⊆ pieceKeys (before ++ piece :: between) := by
      rw [pieceKeys_append, pieceKeys_cons piece between]
      exact List.subset_append_of_subset_right _ (List.subset_append_left _ _)
    rw [pieceKeys_append _ after, pieceKeys_append _ (piece :: after), pieceKeys_cons piece after,
      eraseDups_append_of_subset hsaid]
    exact .inl rfl
  | reorder hreorders hperm => exact .inr ⟨hreorders, (hperm.map _).filter _⟩

theorem Rewords.mem_pieceKeys_iff (h : Rewords reorders pieces pieces') (key : String) :
    key ∈ pieceKeys pieces ↔ key ∈ pieceKeys pieces' := by
  rcases h.eraseDups_or_perm with hfirst | ⟨-, hperm⟩
  · rw [← List.mem_eraseDups, hfirst, List.mem_eraseDups]
  · exact hperm.mem_iff

/-- Where nothing is reordered, the items are first mentioned in the same order. -/
theorem Rewords.eraseDups_pieceKeys (h : Rewords False pieces pieces') :
    (pieceKeys pieces).eraseDups = (pieceKeys pieces').eraseDups :=
  h.eraseDups_or_perm.resolve_right fun hreorder => hreorder.1

theorem SameList.mem_iff (h : SameList reorders s s') (key : String) :
    key ∈ (commaList s).map String.toLower ↔ key ∈ (commaList s').map String.toLower := by
  rw [map_toLower_commaList, map_toLower_commaList]
  exact iff_of_eq (congrArg (Quot.lift (fun pieces => key ∈ pieceKeys pieces)
    fun _ _ h => propext (h.mem_pieceKeys_iff key)) (Quot.eqvGen_sound h))

theorem SameList.eraseDups_eq (h : SameList False s s') :
    ((commaList s).map String.toLower).eraseDups =
      ((commaList s').map String.toLower).eraseDups := by
  rw [map_toLower_commaList, map_toLower_commaList]
  exact congrArg (Quot.lift (fun pieces => (pieceKeys pieces).eraseDups)
    fun _ _ h => h.eraseDups_pieceKeys) (Quot.eqvGen_sound h)

end Keys

end DeliveryPipeline.Text
