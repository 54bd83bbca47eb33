import DeliveryPipeline.Proofs.Text.Pieces
import DeliveryPipeline.Value.Json

/-!
# What a JSON text determines

The first character of a JSON text tells the kind of value, a number ends where a comma or a line
break follows, and no written character of a text is the beginning of another one. So no two values
are written alike, if numbers that are written as they come are left aside.
-/
namespace DeliveryPipeline

/-- A value without numbers that are written as they come. -/
inductive Value.Exact : Value → Prop where
  | null : Exact .null
  | boolean (b : Bool) : Exact (.boolean b)
  | integer (n : Int) : Exact (.integer n)
  | text (s : String) : Exact (.text s)
  | list {items : List Value} (each : ∀ v ∈ items, Exact v) : Exact (.list items)
  | record {fields : List (String × Value)} (each : ∀ f ∈ fields, Exact f.2) :
    Exact (.record fields)

namespace Value

attribute [simp] Exact.boolean Exact.integer Exact.text

@[simp] theorem exact_list_iff {items : List Value} :
    (list items).Exact ↔ ∀ v ∈ items, v.Exact :=
  ⟨fun | .list each => each, .list⟩

@[simp] theorem exact_record_iff {fields : List (String × Value)} :
    (record fields).Exact ↔ ∀ f ∈ fields, f.2.Exact :=
  ⟨fun | .record each => each, .record⟩

end Value

namespace Json

/-- The characters that are written with a backslash. -/
def escaped : List Char :=
  '"' :: '\\' :: (List.range 0x20).map Char.ofNat

theorem mem_escaped_of_lt {c : Char} (h : c.toNat < 0x20) : c ∈ escaped := by
  refine List.mem_cons_of_mem _ (List.mem_cons_of_mem _ ?_)
  exact List.mem_map.2 ⟨c.toNat, List.mem_range.2 h, Char.ofNat_toNat c⟩

theorem escapedChar_of_notMem {c : Char} (h : c ∉ escaped) : escapedChar c = [c] := by
  have hmarks : ¬(c = '"' ∨ c = '\\') := by
    rintro (rfl | rfl) <;> exact h (by decide +kernel)
  have hcontrol : ¬c.toNat < 0x20 := fun hlt => h (mem_escaped_of_lt hlt)
  have hne (n : Nat) (hn : n < 0x20) : c ≠ Char.ofNat n := by
    rintro rfl
    exact h (List.mem_cons_of_mem _ (List.mem_cons_of_mem _
      (List.mem_map.2 ⟨n, List.mem_range.2 hn, rfl⟩)))
  rw [escapedChar, if_neg hmarks, if_neg (hne 0x08 (by decide)), if_neg (hne 0x09 (by decide)),
    if_neg (hne 0x0a (by decide)), if_neg (hne 0x0c (by decide)), if_neg (hne 0x0d (by decide)),
    if_neg hcontrol]

theorem head?_escapedChar {c : Char} :
    (escapedChar c).head? = some (if c ∈ escaped then '\\' else c) := by
  split
  next h =>
    have hall : (escaped.all fun c => (escapedChar c).head? = some '\\') = true := by
      decide +kernel
    exact of_decide_eq_true (List.all_eq_true.1 hall c h)
  next h => rw [escapedChar_of_notMem h, List.head?_cons]

/-- No written character is the beginning of another one. -/
theorem eq_of_escapedChar_isPrefix {c c' : Char} (h : escapedChar c <+: escapedChar c') :
    c = c' := by
  -- by hand: a bounded quantifier may be decided over all characters
  have hall : (escaped.all fun c => escaped.all fun c' =>
      escapedChar c <+: escapedChar c' → c = c') = true := by
    decide +kernel
  have hbackslash : '\\' ∈ escaped := by decide +kernel
  have hhead : (if c ∈ escaped then '\\' else c) = if c' ∈ escaped then '\\' else c' := by
    obtain ⟨rest, hrest⟩ := h
    have hfirst := congrArg List.head? hrest
    rw [List.head?_append, head?_escapedChar, head?_escapedChar] at hfirst
    exact Option.some.inj hfirst
  by_cases hc : c ∈ escaped <;> by_cases hc' : c' ∈ escaped
  · exact of_decide_eq_true (List.all_eq_true.1 (List.all_eq_true.1 hall c hc) c' hc') h
  · rw [if_pos hc, if_neg hc'] at hhead
    exact absurd (hhead ▸ hbackslash) hc'
  · rw [if_neg hc, if_pos hc'] at hhead
    exact absurd (hhead ▸ hbackslash) hc
  · rwa [if_neg hc, if_neg hc'] at hhead

theorem escapedChar_append_inj {c c' : Char} {t t' : List Char}
    (h : escapedChar c ++ t = escapedChar c' ++ t') : c = c' ∧ t = t' := by
  have hc : c = c' := by
    have hprefix : escapedChar c' <+: escapedChar c ++ t := h ▸ List.prefix_append _ t'
    rcases List.prefix_or_prefix_of_prefix (List.prefix_append (escapedChar c) t) hprefix with h | h
    · exact eq_of_escapedChar_isPrefix h
    · exact (eq_of_escapedChar_isPrefix h).symm
  subst hc
  exact ⟨rfl, List.append_cancel_left h⟩

/-- No written character begins with the mark that ends a text. -/
theorem escapedChar_append_ne {c : Char} {t t' : List Char} : escapedChar c ++ t ≠ '"' :: t' := by
  intro h
  have hfirst := congrArg List.head? h
  rw [List.head?_append, head?_escapedChar, List.head?_cons] at hfirst
  have hmark := Option.some.inj hfirst
  split at hmark
  next => exact absurd hmark (by decide)
  next hc =>
    rw [hmark] at hc
    exact hc List.mem_cons_self

theorem flatMap_escapedChar_inj {cs cs' t t' : List Char}
    (h : cs.flatMap escapedChar ++ '"' :: t = cs'.flatMap escapedChar ++ '"' :: t') :
    cs = cs' ∧ t = t' := by
  induction cs generalizing cs' with
  | nil =>
    cases cs' with
    | nil => exact ⟨rfl, (List.cons.inj h).2⟩
    | cons c' cs' =>
      rw [List.flatMap_cons, List.append_assoc] at h
      exact absurd h.symm escapedChar_append_ne
  | cons c cs ih =>
    cases cs' with
    | nil =>
      rw [List.flatMap_cons, List.append_assoc] at h
      exact absurd h escapedChar_append_ne
    | cons c' cs' =>
      rw [List.flatMap_cons, List.flatMap_cons, List.append_assoc, List.append_assoc] at h
      obtain ⟨rfl, hrest⟩ := escapedChar_append_inj h
      obtain ⟨rfl, ht⟩ := ih hrest
      exact ⟨rfl, ht⟩

theorem quoted_append_inj {s s' : String} {t t' : List Char}
    (h : (quoted s).toList ++ t = (quoted s').toList ++ t') : s = s' ∧ t = t' := by
  simp only [quoted, String.toList_ofList, List.cons_append, List.append_assoc, List.nil_append,
    List.cons.injEq, true_and] at h
  obtain ⟨hs, ht⟩ := flatMap_escapedChar_inj h
  exact ⟨String.toList_inj.1 hs, ht⟩

/-- What may follow a written value: a comma or a line break, and then anything. -/
def Ends (t : List Char) : Prop :=
  ∃ c rest, t = c :: rest ∧ c ∈ [',', '\n']

theorem toList_toString_int (n : Int) : (toString n).toList =
    if 0 ≤ n then Nat.toDigits 10 n.toNat else '-' :: Nat.toDigits 10 (-n).toNat := by
  rw [Int.toString_eq_repr, Int.repr_eq_if]
  split
  next => exact Nat.toList_repr
  next => rw [String.toList_append, Nat.toList_repr]; rfl

theorem toDigits_injective : Function.Injective (Nat.toDigits 10) := by
  intro m n h
  have hread := congrArg (Nat.ofDigitChars 10 · 0) h
  simpa using hread

theorem isDigit_of_mem_toDigits {c : Char} {n : Nat} (h : c ∈ Nat.toDigits 10 n) :
    c.isDigit = true :=
  Nat.isDigit_of_mem_toDigits (by decide) (by decide) h

theorem minus_notMem_toDigits (n : Nat) : '-' ∉ Nat.toDigits 10 n := by
  intro h
  exact absurd (isDigit_of_mem_toDigits h) (by decide)

theorem toString_int_injective {n n' : Int} (h : (toString n).toList = (toString n').toList) :
    n = n' := by
  rw [toList_toString_int, toList_toString_int] at h
  split at h <;> split at h
  next hn hn' =>
    have := toDigits_injective h
    omega
  next => exact absurd (h ▸ List.mem_cons_self) (minus_notMem_toDigits _)
  next => exact absurd (h ▸ List.mem_cons_self) (minus_notMem_toDigits _)
  next hn hn' =>
    have := toDigits_injective (List.cons.inj h).2
    omega

/-- A number is written without what may follow it. -/
theorem notMem_marks_of_mem_toString {n : Int} {c : Char} (h : c ∈ (toString n).toList) :
    c ∉ [',', '\n'] := by
  rw [toList_toString_int] at h
  have hc : c = '-' ∨ c.isDigit = true := by
    split at h
    next => exact .inr (isDigit_of_mem_toDigits h)
    next => exact (List.mem_cons.1 h).imp_right isDigit_of_mem_toDigits
  rcases hc with rfl | hdigit
  · decide
  · intro hmark
    simp only [List.mem_cons, List.not_mem_nil, or_false] at hmark
    rcases hmark with rfl | rfl <;> exact absurd hdigit (by decide)

theorem toString_append_inj {n n' : Int} {t t' : List Char} (ht : Ends t) (ht' : Ends t')
    (h : (toString n).toList ++ t = (toString n').toList ++ t') : n = n' ∧ t = t' := by
  obtain ⟨c, rest, rfl, hc⟩ := ht
  obtain ⟨c', rest', rfl, hc'⟩ := ht'
  obtain ⟨hn, rfl, rfl⟩ := Text.append_cons_inj (fun _ => notMem_marks_of_mem_toString)
    (fun _ => notMem_marks_of_mem_toString) hc hc' h
  exact ⟨toString_int_injective hn, rfl⟩

/-- A written item on a line of its own, behind the comma that ends the line before. -/
def row (level : Nat) (s : String) : List Char :=
  ',' :: ((newLine level).toList ++ s.toList)

theorem toList_newLine (level : Nat) :
    (newLine level).toList = '\n' :: List.replicate (2 * level) ' ' := by
  simp [newLine]

theorem comma_cons_intercalate (x : List Char) (xs : List (List Char)) :
    ',' :: [','].intercalate (x :: xs) = (x :: xs).flatMap (',' :: ·) := by
  induction xs generalizing x with
  | nil => simp [List.intercalate]
  | cons y ys ih =>
    rw [List.flatMap_cons, ← ih y]
    simp [List.intercalate]

/-- Items between brackets stand in rows, of which the first one lacks its comma. -/
theorem toList_enclosed_cons (level : Nat) (opening closing s : String) (ss : List String) :
    ∃ rows, ',' :: rows = (s :: ss).flatMap (row (level + 1)) ∧
      (enclosed level opening closing (s :: ss)).toList =
        opening.toList ++ (rows ++ ((newLine level).toList ++ closing.toList)) := by
  let line (i : String) : List Char := (newLine (level + 1)).toList ++ i.toList
  refine ⟨[','].intercalate (line s :: ss.map line), ?_, ?_⟩
  · rw [comma_cons_intercalate, List.flatMap_cons, List.flatMap_map]
    rfl
  · rw [enclosed, if_neg (by simp), String.toList_append, String.toList_append,
      String.toList_append, String.toList_intercalate]
    simp [line, Function.comp_def]

theorem ends_rows (level : Nat) (ss : List String) (t : List Char) :
    Ends (ss.flatMap (row level) ++ '\n' :: t) := by
  cases ss with
  | nil => exact ⟨'\n', t, rfl, by simp⟩
  | cons s ss => exact ⟨',', _, rfl, by simp⟩

section Items

variable {α : Type} {write : α → String} {level : Nat} {xs xs' : List α} {t t' : List Char}

/-- The items of rows are determined if each written item is, where something follows it. -/
theorem rows_append_inj
    (hwrite : ∀ x ∈ xs, ∀ x' ∈ xs', ∀ u u', Ends u → Ends u' →
      (write x).toList ++ u = (write x').toList ++ u' → x = x' ∧ u = u')
    (h : (xs.map write).flatMap (row level) ++ '\n' :: t =
      (xs'.map write).flatMap (row level) ++ '\n' :: t') : xs = xs' ∧ t = t' := by
  induction xs generalizing xs' with
  | nil =>
    cases xs' with
    | nil => exact ⟨rfl, (List.cons.inj h).2⟩
    | cons x' xs' => exact absurd (List.cons.inj h).1 (by decide)
  | cons x xs ih =>
    cases xs' with
    | nil => exact absurd (List.cons.inj h).1 (by decide)
    | cons x' xs' =>
      simp only [List.map_cons, List.flatMap_cons, row, List.cons_append, List.append_assoc,
        List.cons.injEq, true_and, List.append_cancel_left_eq] at h
      obtain ⟨rfl, hrest⟩ := hwrite x List.mem_cons_self x' List.mem_cons_self _ _
        (ends_rows level _ t) (ends_rows level _ t') h
      obtain ⟨rfl, ht⟩ := ih (fun y hy y' hy' =>
        hwrite y (List.mem_cons_of_mem x hy) y' (List.mem_cons_of_mem x hy')) hrest
      exact ⟨rfl, ht⟩

/-- So are items between brackets, since the closing one stands on a line of its own after items. -/
theorem enclosed_append_inj {opening closing : String} {c : Char} {cs : List Char}
    (hclosing : closing.toList = c :: cs) (hc : c ≠ '\n')
    (hwrite : ∀ x ∈ xs, ∀ x' ∈ xs', ∀ u u', Ends u → Ends u' →
      (write x).toList ++ u = (write x').toList ++ u' → x = x' ∧ u = u')
    (h : (enclosed level opening closing (xs.map write)).toList ++ t =
      (enclosed level opening closing (xs'.map write)).toList ++ t') : xs = xs' ∧ t = t' := by
  have hempty (x : α) (xs : List α) (t t' : List Char) :
      (enclosed level opening closing ([].map write)).toList ++ t ≠
        (enclosed level opening closing ((x :: xs).map write)).toList ++ t' := by
    obtain ⟨rows, hrows, htext⟩ :=
      toList_enclosed_cons level opening closing (write x) (xs.map write)
    rw [List.flatMap_cons, row, toList_newLine] at hrows
    rw [List.map_cons, htext, (List.cons.inj hrows).2]
    intro h
    simp only [enclosed, List.map_nil, List.isEmpty_nil, if_true, String.toList_append, hclosing,
      List.append_assoc, List.cons_append, List.append_cancel_left_eq] at h
    exact hc (List.cons.inj h).1
  cases xs with
  | nil =>
    cases xs' with
    | nil => exact ⟨rfl, List.append_cancel_left h⟩
    | cons x' xs' => exact absurd h (hempty x' xs' t t')
  | cons x xs =>
    cases xs' with
    | nil => exact absurd h.symm (hempty x xs t' t)
    | cons x' xs' =>
      obtain ⟨rows, hrows, htext⟩ :=
        toList_enclosed_cons level opening closing (write x) (xs.map write)
      obtain ⟨rows', hrows', htext'⟩ :=
        toList_enclosed_cons level opening closing (write x') (xs'.map write)
      rw [List.map_cons, List.map_cons, htext, htext'] at h
      simp only [toList_newLine, List.append_assoc, List.cons_append,
        List.append_cancel_left_eq] at h
      have hlines := congrArg (',' :: ·) h
      simp only [← List.cons_append, hrows, hrows', ← List.map_cons] at hlines
      obtain ⟨hxs, hrest⟩ := rows_append_inj hwrite hlines
      exact ⟨hxs, by simpa using hrest⟩

end Items

theorem writeItems_eq (level : Nat) (items : List Value) :
    writeItems level items = items.map (write level) := by
  induction items with
  | nil => rfl
  | cons v rest ih => rw [writeItems, ih, List.map_cons]

/-- A field of a record as it is written. -/
def fieldText (level : Nat) (f : String × Value) : String :=
  quoted f.1 ++ ": " ++ write level f.2

theorem writeFields_eq (level : Nat) (fields : List (String × Value)) :
    writeFields level fields = fields.map (fieldText level) := by
  induction fields with
  | nil => rfl
  | cons f rest ih => rw [writeFields, ih, List.map_cons, fieldText]

/-- The kind of a value, by a number. -/
def kind : Value → Nat
  | .null => 0
  | .boolean _ => 1
  | .integer _ => 2
  | .text _ => 3
  | .list _ => 4
  | .record _ => 5
  | .decimal _ => 6

/-- The kind of value whose text begins with a character. -/
def kindOf (c : Char) : Nat :=
  if c = 'n' then 0
  else if c = 't' ∨ c = 'f' then 1
  else if c = '-' ∨ c.isDigit then 2
  else if c = '"' then 3
  else if c = '[' then 4
  else 5

theorem head?_enclosed (level : Nat) {opening closing : String} {c : Char} {cs : List Char}
    (hopening : opening.toList = c :: cs) (items : List String) :
    (enclosed level opening closing items).toList.head? = some c := by
  rw [enclosed]
  split <;> simp [hopening]

theorem kindOf_of_isDigit {c : Char} (h : c.isDigit = true) : kindOf c = 2 := by
  have hne (d : Char) (hd : d.isDigit = false) : c ≠ d := by
    rintro rfl
    rw [h] at hd
    cases hd
  have hletters : ¬(c = 't' ∨ c = 'f') := not_or.2 ⟨hne 't' rfl, hne 'f' rfl⟩
  rw [kindOf, if_neg (hne 'n' rfl), if_neg hletters, if_pos (.inr h)]

theorem kindOf_head?_toString (n : Int) : (toString n).toList.head?.map kindOf = some 2 := by
  rw [toList_toString_int]
  split
  next =>
    cases hdigits : Nat.toDigits 10 n.toNat with
    | nil => exact absurd hdigits Nat.toDigits_ne_nil
    | cons c cs =>
      have hc : c ∈ Nat.toDigits 10 n.toNat := by simp [hdigits]
      simp [kindOf_of_isDigit (isDigit_of_mem_toDigits hc)]
  next => rfl

/-- The first character of a text tells what kind of value is written. -/
theorem kind_of_exact {v : Value} (hv : v.Exact) (level : Nat) :
    (write level v).toList.head?.map kindOf = some (kind v) := by
  cases hv with
  | null => rw [write]; rfl
  | boolean b => cases b <;> rw [write] <;> rfl
  | integer n => rw [write]; exact kindOf_head?_toString n
  | text s => simp [write, quoted, kindOf, kind]
  | list each => rw [write, head?_enclosed level rfl]; rfl
  | record each => rw [write, head?_enclosed level rfl]; rfl

theorem kind_eq_of_append_eq {v v' : Value} (hv : v.Exact) (hv' : v'.Exact) {level : Nat}
    {t t' : List Char} (h : (write level v).toList ++ t = (write level v').toList ++ t') :
    kind v = kind v' := by
  obtain ⟨c, hhead, hc⟩ := Option.map_eq_some_iff.1 (kind_of_exact hv level)
  obtain ⟨c', hhead', hc'⟩ := Option.map_eq_some_iff.1 (kind_of_exact hv' level)
  have hfirst := congrArg List.head? h
  rw [List.head?_append, List.head?_append, hhead, hhead', Option.some_or, Option.some_or] at hfirst
  rw [← hc, ← hc', Option.some.inj hfirst]

/-- A written value determines the value and what follows it. -/
theorem write_append_inj {v v' : Value} (hv : v.Exact) (hv' : v'.Exact) {level : Nat}
    {t t' : List Char} (ht : Ends t) (ht' : Ends t')
    (h : (write level v).toList ++ t = (write level v').toList ++ t') : v = v' ∧ t = t' := by
  induction hv generalizing v' level t t' with
  | null =>
    have hkind := kind_eq_of_append_eq .null hv' h
    cases hv' with
    | null => exact ⟨rfl, List.append_cancel_left h⟩
    | _ => cases hkind
  | boolean b =>
    have hkind := kind_eq_of_append_eq (.boolean b) hv' h
    cases hv' with
    | boolean b' =>
      rw [write, write] at h
      cases b <;> cases b'
      · exact ⟨rfl, List.append_cancel_left h⟩
      · exact absurd (List.cons.inj h).1 (by decide)
      · exact absurd (List.cons.inj h).1 (by decide)
      · exact ⟨rfl, List.append_cancel_left h⟩
    | _ => cases hkind
  | integer n =>
    have hkind := kind_eq_of_append_eq (.integer n) hv' h
    cases hv' with
    | integer n' =>
      rw [write, write] at h
      obtain ⟨rfl, htails⟩ := toString_append_inj ht ht' h
      exact ⟨rfl, htails⟩
    | _ => cases hkind
  | text s =>
    have hkind := kind_eq_of_append_eq (.text s) hv' h
    cases hv' with
    | text s' =>
      rw [write, write] at h
      obtain ⟨rfl, htails⟩ := quoted_append_inj h
      exact ⟨rfl, htails⟩
    | _ => cases hkind
  | list each ih =>
    have hkind := kind_eq_of_append_eq (.list each) hv' h
    cases hv' with
    | list each' =>
      rw [write, write, writeItems_eq, writeItems_eq] at h
      obtain ⟨rfl, htails⟩ := enclosed_append_inj rfl (by decide)
        (fun v hv v' hv' u u' hu hu' h => ih v hv (each' v' hv') hu hu' h) h
      exact ⟨rfl, htails⟩
    | _ => cases hkind
  | @record fields each ih =>
    have hkind := kind_eq_of_append_eq (.record each) hv' h
    cases hv' with
    | @record fields' each' =>
      have hfields : ∀ f ∈ fields, ∀ f' ∈ fields', ∀ u u', Ends u → Ends u' →
          (fieldText (level + 1) f).toList ++ u = (fieldText (level + 1) f').toList ++ u' →
            f = f' ∧ u = u' := by
        intro f hf f' hf' u u' hu hu' h
        simp only [fieldText, String.toList_append, List.append_assoc] at h
        obtain ⟨hname, hrest⟩ := quoted_append_inj h
        obtain ⟨hvalue, htails⟩ := ih f hf (each' f' hf') hu hu' (List.append_cancel_left hrest)
        exact ⟨Prod.ext hname hvalue, htails⟩
      rw [write, write, writeFields_eq, writeFields_eq] at h
      obtain ⟨rfl, htails⟩ := enclosed_append_inj rfl (by decide) hfields h
      exact ⟨rfl, htails⟩
    | _ => cases hkind

/-- No two values are written alike, if numbers that are written as they come are left aside. -/
theorem ofValue_inj {v v' : Value} (hv : v.Exact) (hv' : v'.Exact) :
    ofValue v = ofValue v' ↔ v = v' := by
  constructor
  · intro h
    have hends : Ends ['\n'] := ⟨'\n', [], rfl, by simp⟩
    exact (write_append_inj hv hv' hends hends (congrArg (·.toList ++ ['\n']) h)).1
  · rintro rfl
    rfl

end Json

end DeliveryPipeline
