import DeliveryPipeline.Proofs.Classification.Composition

/-!
# Merging as a union

A merge puts what the other classification has new behind what there is, as the other one has it:
its entries among the entries, with their bindings in the role tables, and its handlers without a
role among those. What is recorded already stays as it is. Such a union is associative, and nothing
comes of merging what has been merged.
-/
namespace DeliveryPipeline

/-- Bind entries in the role tables of a strategy, one after another. -/
def RoleTables.bindEntries (t : RoleTables) (s : Strategy) (es : List Entry) : RoleTables :=
  es.foldl (fun t e => t.bindAll (e.places s) e.binding) t

theorem RoleTables.bindEntries_append (t : RoleTables) (s : Strategy) (es es' : List Entry) :
    t.bindEntries s (es ++ es') = (t.bindEntries s es).bindEntries s es' :=
  List.foldl_append

/-- What is bound further comes behind what is listed. -/
theorem RoleTables.handlers_prefix_bindEntries (t : RoleTables) (s : Strategy) (es : List Entry)
    (role : Role) (target : String) :
    t.handlers role target <+: (t.bindEntries s es).handlers role target := by
  unfold bindEntries
  induction es generalizing t with
  | nil => exact List.prefix_rfl
  | cons e es ih =>
    refine .trans ?_ (ih _)
    rw [handlers, handlers, get_bindAll]
    exact List.prefix_append ..

namespace Classification

variable {c other : Classification}

/-- The entries of another classification whose handlers are not recorded. -/
def newEntries (c other : Classification) : List Entry :=
  other.entries.filter fun e => !c.contains e.handler.id

/-- The handlers without a role of another classification that are not recorded. -/
def newUnclassified (c other : Classification) : List Binding :=
  other.unclassified.filter fun b => !c.contains b.handler.id

/-- One classification with what another one has new behind it. -/
def union (c other : Classification) : Classification where
  entries := c.entries ++ c.newEntries other
  unclassified := c.unclassified ++ c.newUnclassified other
  stream := c.stream.bindEntries .stream (c.newEntries other)
  tree := c.tree.bindEntries .tree (c.newEntries other)

section Union

theorem tables_union (c other : Classification) (s : Strategy) :
    (c.union other).tables s = (c.tables s).bindEntries s (c.newEntries other) := by
  cases s <;> rfl

theorem any_filter_new {α : Type} (xs : List α) (idOf : α → HandlerId) (c : Classification)
    (id : HandlerId) :
    (xs.filter fun x => !c.contains (idOf x)).any (fun x => idOf x == id) =
      (!c.contains id && xs.any fun x => idOf x == id) := by
  rw [Bool.eq_iff_iff, List.any_filter, Bool.and_eq_true, List.any_eq_true, List.any_eq_true]
  simp only [Bool.and_eq_true, beq_iff_eq]
  constructor
  · rintro ⟨x, hx, hnew, rfl⟩
    exact ⟨hnew, x, hx, rfl⟩
  · rintro ⟨hnew, x, hx, rfl⟩
    exact ⟨x, hx, hnew, rfl⟩

theorem contains_union (c other : Classification) (id : HandlerId) :
    (c.union other).contains id = (c.contains id || other.contains id) := by
  have hunion : (c.union other).contains id =
      ((c.entries.any (·.handler.id == id) || (!c.contains id &&
          other.entries.any (·.handler.id == id))) ||
        (c.unclassified.any (·.handler.id == id) || (!c.contains id &&
          other.unclassified.any (·.handler.id == id)))) := by
    simp only [← any_filter_new, ← List.any_append]
    rfl
  rw [hunion]
  unfold contains
  cases c.entries.any (·.handler.id == id) <;>
    cases c.unclassified.any (·.handler.id == id) <;> rfl

/-- What is new of a union is what is new of its parts, one after the other. -/
theorem filter_new_filter_new {α : Type} (xs : List α) (idOf : α → HandlerId)
    (a b : Classification) :
    (xs.filter fun x => !b.contains (idOf x)).filter (fun x => !a.contains (idOf x)) =
      xs.filter fun x => !(a.union b).contains (idOf x) := by
  rw [List.filter_filter]
  refine List.filter_congr fun x _ => ?_
  rw [contains_union, Bool.not_or]

theorem newEntries_union (a b c : Classification) :
    a.newEntries (b.union c) = a.newEntries b ++ (a.union b).newEntries c := by
  rw [newEntries, union, List.filter_append]
  exact congrArg _ (filter_new_filter_new c.entries (·.handler.id) a b)

theorem newUnclassified_union (a b c : Classification) :
    a.newUnclassified (b.union c) = a.newUnclassified b ++ (a.union b).newUnclassified c := by
  rw [newUnclassified, union, List.filter_append]
  exact congrArg _ (filter_new_filter_new c.unclassified (·.handler.id) a b)

theorem union_assoc (a b c : Classification) : (a.union b).union c = a.union (b.union c) := by
  rw [union, union.eq_1 a (b.union c), newEntries_union, newUnclassified_union]
  simp only [RoleTables.bindEntries_append, ← List.append_assoc]
  rfl

/-- A union takes over what is recorded and nothing of the tables. -/
theorem union_congr {x y : Classification} (hentries : x.entries = y.entries)
    (hunclassified : x.unclassified = y.unclassified) (c : Classification) :
    c.union x = c.union y := by
  simp only [union, newEntries, newUnclassified, hentries, hunclassified]

theorem newEntries_self (c : Classification) : c.newEntries c = [] := by
  rw [newEntries, List.filter_eq_nil_iff]
  intro e he
  have hknown : c.contains e.handler.id = true := by
    rw [contains_iff]
    exact List.mem_append_left _ (List.mem_map_of_mem he)
  simp [hknown]

theorem newUnclassified_self (c : Classification) : c.newUnclassified c = [] := by
  rw [newUnclassified, List.filter_eq_nil_iff]
  intro b hb
  have hknown : c.contains b.handler.id = true := by
    rw [contains_iff]
    exact List.mem_append_right _ (List.mem_map_of_mem hb)
  simp [hknown]

theorem union_self (c : Classification) : c.union c = c := by
  simp [union, newEntries_self, newUnclassified_self, RoleTables.bindEntries]

end Union

section Addition

theorem contains_add (c : Classification) (h : Handler) (d : Descriptor) (targets : List String)
    (id : HandlerId) : (c.add h d targets).contains id = (c.contains id || id == h.id) := by
  rw [Bool.eq_iff_iff, Bool.or_eq_true, beq_iff_eq, contains_iff, contains_iff]
  by_cases hknown : h.id ∈ c.ids
  · rw [add_of_contains ((contains_iff c h.id).2 hknown)]
    refine (or_iff_left_of_imp ?_).symm
    rintro rfl
    exact hknown
  · rw [(ids_add_perm hknown d targets).mem_iff, List.mem_cons, or_comm]

/-- An addition makes no other handler known. -/
theorem filter_new_add {α : Type} {id : α → HandlerId} {xs : List α} {h : Handler}
    (hne : h.id ∉ xs.map id) (c : Classification) (d : Descriptor) (targets : List String) :
    xs.filter (fun x => !(c.add h d targets).contains (id x)) =
      xs.filter fun x => !c.contains (id x) := by
  refine List.filter_congr fun x hx => ?_
  have hother : id x ≠ h.id := fun hsame => hne (List.mem_map.2 ⟨x, hx, hsame⟩)
  rw [contains_add, beq_eq_false_iff_ne.2 hother, Bool.or_false]

/-- Different handlers with roles become entries if they are new. -/
theorem foldl_add_entries {es : List Entry} (hids : (es.map (·.handler.id)).Nodup)
    (hroles : ∀ e ∈ es, e.handler.capabilities.roles ≠ []) (c : Classification) :
    es.foldl (fun c e => c.add e.handler e.descriptor e.targets) c =
      c.union { entries := es } := by
  simp only [union, newEntries, newUnclassified, List.filter_nil, List.append_nil]
  induction es generalizing c with
  | nil => simp [RoleTables.bindEntries]
  | cons e es ih =>
    obtain ⟨hnot, hrest⟩ := List.nodup_cons.1 hids
    obtain ⟨hrole, hroles⟩ := List.forall_mem_cons.1 hroles
    rw [List.foldl_cons, ih hrest hroles, filter_new_add hnot, List.filter_cons]
    cases hknown : c.contains e.handler.id with
    | true => simp [add_of_contains hknown]
    | false => simp [add, hknown, hrole, RoleTables.bindEntries, Entry.places, Entry.binding]

/-- Different handlers without roles are remembered if they are new. -/
theorem foldl_add_unclassified {bs : List Binding} (hids : (bs.map (·.handler.id)).Nodup)
    (hroles : ∀ b ∈ bs, b.handler.capabilities.roles = []) (c : Classification) :
    bs.foldl (fun c b => c.add b.handler b.descriptor []) c =
      c.union { unclassified := bs } := by
  simp only [union, newEntries, newUnclassified, List.filter_nil, List.append_nil,
    RoleTables.bindEntries, List.foldl_nil]
  induction bs generalizing c with
  | nil => simp
  | cons b bs ih =>
    obtain ⟨hnot, hrest⟩ := List.nodup_cons.1 hids
    obtain ⟨hrole, hroles⟩ := List.forall_mem_cons.1 hroles
    rw [List.foldl_cons, ih hrest hroles, filter_new_add hnot, List.filter_cons]
    cases hknown : c.contains b.handler.id with
    | true => simp [add_of_contains hknown]
    | false => simp [add, hknown, hrole]

/-- A merge comes to the union, since the handlers of a coherent classification are different and
those with roles are its entries. -/
theorem Coherent.merge_eq_union (hother : other.Coherent) (c : Classification) :
    c.merge other = c.union other := by
  obtain ⟨hentries, hunclassified, hdisjoint⟩ := List.nodup_append.1 hother.nodup_ids
  rw [merge, foldl_add_entries hentries hother.roles_ne_nil,
    foldl_add_unclassified hunclassified hother.roles_eq_nil, union_assoc]
  have hnew : newUnclassified { entries := other.entries } { unclassified := other.unclassified } =
      other.unclassified := by
    rw [newUnclassified, List.filter_eq_self]
    intro b hb
    have hnone : ¬ ∃ e ∈ other.entries, e.handler.id = b.handler.id := by
      rintro ⟨e, he, hsame⟩
      exact hdisjoint _ (List.mem_map_of_mem he) _ (List.mem_map_of_mem hb) hsame
    simpa [contains] using hnone
  apply union_congr
  · exact List.append_nil _
  · rw [union, hnew, List.nil_append]

end Addition

/-- Merging is a union in which the first wins. Nothing comes of merging the empty classification, a
classification into itself, or one a second time, and it makes no difference whether two are merged
one after the other or together. What the second one has new stands behind what the first one has,
as the second one has it, and the lists of the role tables only grow at their ends. -/
theorem Composed.merge_first_wins {a b c : Classification} (ha : a.Composed fun _ => True)
    (hb : b.Composed fun _ => True) (hc : c.Composed fun _ => True) :
    (a.merge {} = a ∧ a.merge a = a ∧ (a.merge b).merge b = a.merge b ∧
      (a.merge b).merge c = a.merge (b.merge c)) ∧
    (a.merge b).entries =
      a.entries ++ b.entries.filter (fun e => !a.contains e.handler.id) ∧
    (a.merge b).unclassified =
      a.unclassified ++ b.unclassified.filter (fun u => !a.contains u.handler.id) ∧
    ∀ s role target,
      (a.tables s).handlers role target <+: ((a.merge b).tables s).handlers role target := by
  have hmerged : (b.merge c).Coherent := (grows_merge b c).coherent hb.coherent
  refine ⟨⟨rfl, ?_, ?_, ?_⟩, ?_, ?_, fun s role target => ?_⟩
  · rw [ha.coherent.merge_eq_union, union_self]
  · rw [hb.coherent.merge_eq_union, hb.coherent.merge_eq_union, union_assoc, union_self]
  · rw [hmerged.merge_eq_union, hc.coherent.merge_eq_union, hc.coherent.merge_eq_union,
      hb.coherent.merge_eq_union, union_assoc]
  · rw [hb.coherent.merge_eq_union]
    rfl
  · rw [hb.coherent.merge_eq_union]
    rfl
  · rw [hb.coherent.merge_eq_union, tables_union]
    exact RoleTables.handlers_prefix_bindEntries ..

/-- A handler of trees that serializes. -/
def sharedHandler : Handler :=
  ⟨.given 0, "shared", (Capabilities.empty.addStrategy .tree).addRole .serialize⟩

/-- A handler without a role. -/
def plainHandler : Handler :=
  ⟨.given 1, "plain", Capabilities.empty⟩

/-- The shared handler for paragraphs, sorted. -/
def forParagraphs : Classification :=
  (add {} sharedHandler { selector := "p" } ["p"]).sort ⟨"html", []⟩

/-- The shared handler for breaks, with a second handler and one without a role. -/
def forBreaks : Classification :=
  ((add {} plainHandler { selector := "br" } []).add sharedHandler { selector := "br" } ["br"]).add
    { sharedHandler with id := .given 2, name := "second" } { selector := "*" } ["p", "br"]

/-- The handler without a role, known from elsewhere, and the second handler for rules. -/
def forRules : Classification :=
  ((add {} { sharedHandler with id := .given 2, name := "second" } { selector := "hr" } ["hr"]).add
    plainHandler { selector := "hr" } []).sort ⟨"html", []⟩

/-- The shared handler stays with paragraphs and the second one with breaks. -/
theorem merge_of_sharedHandler :
    (forParagraphs.Composed fun _ => True) ∧ (forBreaks.Composed fun _ => True) ∧
    (forRules.Composed fun _ => True) ∧
    ((forParagraphs.merge forBreaks).merge forRules =
      forParagraphs.merge (forBreaks.merge forRules)) ∧
    (forParagraphs.merge forBreaks).entries.map (fun e => (e.handler.name, e.targets)) =
      [("shared", ["p"]), ("second", ["p", "br"])] ∧
    (forParagraphs.merge forBreaks).unclassified = [⟨plainHandler, { selector := "br" }⟩] := by
  have hparagraphs : forParagraphs.Composed fun _ => True := .sort _ (.add _ _ .empty trivial)
  have hbreaks : forBreaks.Composed fun _ => True :=
    .add _ _ (.add _ _ (.add _ _ .empty trivial) trivial) trivial
  have hrules : forRules.Composed fun _ => True :=
    .sort _ (.add _ _ (.add _ _ .empty trivial) trivial)
  obtain ⟨⟨-, -, -, hassoc⟩, hentries, hunclassified, -⟩ :=
    Composed.merge_first_wins hparagraphs hbreaks hrules
  refine ⟨hparagraphs, hbreaks, hrules, hassoc, ?_, ?_⟩
  · rw [hentries]
    decide +kernel
  · rw [hunclassified]
    decide +kernel

end Classification

end DeliveryPipeline
