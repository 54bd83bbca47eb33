import DeliveryPipeline.Digest
import DeliveryPipeline.Proofs.Text.Pieces
import Mathlib.Tactic.SplitIfs

/-!
# What the digest tells apart

The byte stream of the digest is read back field by field: a selector, a type and a resource end at
the next unit separator, the name of a parameter at the next equals sign and its value at the unit
separator after that. The profile follows when the next separator is a record separator, and ends
there. So the stream determines descriptors whose texts do not hold what ends them, up to this: an
absent type or resource is written like an empty one. Where a text holds what ends it, different
descriptors may be written the same.
-/
namespace DeliveryPipeline

/-- The byte between the name and the value of a parameter. -/
def equalsSign : UInt8 := 0x3d

def separators : List UInt8 :=
  [unitSeparator, recordSeparator]

def IsAscii (marks : List UInt8) : Prop :=
  ∀ b ∈ marks, b.toNat < 128

instance (marks : List UInt8) : Decidable (IsAscii marks) :=
  List.decidableBAll (fun b : UInt8 => b.toNat < 128) marks

/-- The text holds none of the characters that these ASCII bytes stand for. -/
def Avoids (text : String) (marks : List UInt8) : Prop :=
  ∀ b ∈ marks, Char.ofUInt8 b ∉ text.toList

instance (text : String) (marks : List UInt8) : Decidable (Avoids text marks) :=
  List.decidableBAll (fun b => Char.ofUInt8 b ∉ text.toList) marks

/-- The name of a parameter ends at the equals sign, and its value at the separator. A record
separator in one of them would end a profile. -/
def IsReadable (b : String × String) : Prop :=
  Avoids b.1 [equalsSign, recordSeparator] ∧ Avoids b.2 separators

instance (b : String × String) : Decidable (IsReadable b) :=
  inferInstanceAs (Decidable (_ ∧ _))

namespace Descriptor

/-- No field of the descriptor holds what ends it. -/
structure Separable (d : Descriptor) : Prop where
  selector : Avoids d.selector [unitSeparator]
  declaredType : Avoids (d.declaredType.getD "") [unitSeparator]
  resource : Avoids (d.resource.getD "") [unitSeparator]
  parameters : ∀ b ∈ d.parameters.entries, IsReadable b
  profile : Avoids d.profile separators

instance (d : Descriptor) : Decidable d.Separable :=
  decidable_of_iff (Avoids d.selector [unitSeparator] ∧
      Avoids (d.declaredType.getD "") [unitSeparator] ∧
      Avoids (d.resource.getD "") [unitSeparator] ∧
      (∀ b ∈ d.parameters.entries, IsReadable b) ∧ Avoids d.profile separators)
    ⟨fun ⟨hselector, htype, hresource, hparameters, hprofile⟩ =>
      ⟨hselector, htype, hresource, hparameters, hprofile⟩,
    fun h => ⟨h.selector, h.declaredType, h.resource, h.parameters, h.profile⟩⟩

/-- The descriptor with an empty text in place of an absent type or resource. -/
def filledIn (d : Descriptor) : Descriptor :=
  { d with declaredType := some (d.declaredType.getD ""), resource := some (d.resource.getD "") }

end Descriptor

section Bytes

theorem utf8Bytes_injective {s t : String} (h : utf8Bytes s = utf8Bytes t) : s = t :=
  String.toByteArray_inj.mp (ByteArray.ext (Array.toList_inj.mp h))

theorem utf8Bytes_eq_flatMap (text : String) :
    utf8Bytes text = text.toList.flatMap String.utf8EncodeChar := by
  rw [utf8Bytes, String.toUTF8_eq_toByteArray, ← String.utf8Encode_toList, List.utf8Encode,
    List.toList_data_toByteArray]

/-- An encoding of several bytes has no ASCII byte. -/
theorem toNat_ge_of_mem_utf8EncodeChar {c : Char} {b : UInt8} (hc : ¬ c.val.toNat ≤ 127)
    (hb : b ∈ String.utf8EncodeChar c) : 128 ≤ b.toNat := by
  simp only [String.utf8EncodeChar, if_neg hc] at hb
  split_ifs at hb <;> simp only [List.mem_cons, List.not_mem_nil, or_false] at hb
  · rcases hb with rfl | rfl <;> rw [UInt8.toNat_ofNat'] <;> omega
  · rcases hb with rfl | rfl | rfl <;> rw [UInt8.toNat_ofNat'] <;> omega
  · rcases hb with rfl | rfl | rfl | rfl <;> rw [UInt8.toNat_ofNat'] <;> omega

theorem eq_ofUInt8_of_mem_utf8EncodeChar {c : Char} {b : UInt8} (hb : b.toNat < 128)
    (h : b ∈ String.utf8EncodeChar c) : c = Char.ofUInt8 b := by
  by_cases hc : c.val.toNat ≤ 127
  · simp only [String.utf8EncodeChar, if_pos hc, List.mem_singleton] at h
    subst h
    apply Char.ext
    apply UInt32.toNat.inj
    change c.val.toNat = (UInt8.ofNat c.val.toNat).toUInt32.toNat
    rw [UInt8.toNat_toUInt32, UInt8.toNat_ofNat']
    omega
  · have := toNat_ge_of_mem_utf8EncodeChar hc h
    omega

/-- An ASCII byte stands in the bytes of a text only where the text has its character. -/
theorem ofUInt8_mem_of_mem_utf8Bytes {text : String} {b : UInt8} (hb : b.toNat < 128)
    (h : b ∈ utf8Bytes text) : Char.ofUInt8 b ∈ text.toList := by
  rw [utf8Bytes_eq_flatMap, List.mem_flatMap] at h
  obtain ⟨c, hc, h⟩ := h
  rwa [← eq_ofUInt8_of_mem_utf8EncodeChar hb h]

theorem Avoids.mono {text : String} {marks fewer : List UInt8} (h : Avoids text marks)
    (hsub : fewer ⊆ marks) : Avoids text fewer :=
  fun b hb => h b (hsub hb)

theorem Avoids.not_mem_marks {text : String} {marks : List UInt8} (h : Avoids text marks)
    (hascii : IsAscii marks) {b : UInt8} (hb : b ∈ utf8Bytes text) : b ∉ marks :=
  fun hmark => h b hmark (ofUInt8_mem_of_mem_utf8Bytes (hascii b hmark) hb)

theorem parameterBytes_append (name value : String) (x : List UInt8) :
    parameterBytes name value ++ x =
      utf8Bytes name ++ equalsSign :: (utf8Bytes value ++ unitSeparator :: x) := by
  have hequals : utf8Bytes "=" = [equalsSign] := by decide
  simp [parameterBytes, hequals]

theorem unitSeparator_mem_parameterBytes (name value : String) :
    unitSeparator ∈ parameterBytes name value := by
  simp [parameterBytes]

theorem IsReadable.recordSeparator_not_mem {b : String × String} (h : IsReadable b) :
    recordSeparator ∉ parameterBytes b.1 b.2 := by
  have hname : recordSeparator ∉ utf8Bytes b.1 := fun hmem =>
    h.1.not_mem_marks (by decide) hmem (by decide)
  have hvalue : recordSeparator ∉ utf8Bytes b.2 := fun hmem =>
    h.2.not_mem_marks (by decide) hmem (by decide)
  have hbytes := parameterBytes_append b.1 b.2 []
  rw [List.append_nil] at hbytes
  rw [hbytes, List.mem_append, List.mem_cons, List.mem_append]
  rintro (hmem | hmem | hmem | hmem)
  · exact hname hmem
  · exact absurd hmem (by decide)
  · exact hvalue hmem
  · exact absurd hmem (by decide)

end Bytes

section Fields

variable {x y : List UInt8}

/-- A text is read back, with the mark that ends it and the rest. -/
theorem Avoids.append_inj {a b : String} {marks : List UInt8} {s t : UInt8} (ha : Avoids a marks)
    (hb : Avoids b marks) (hascii : IsAscii marks) (hs : s ∈ marks) (ht : t ∈ marks)
    (h : utf8Bytes a ++ s :: x = utf8Bytes b ++ t :: y) : a = b ∧ s = t ∧ x = y := by
  obtain ⟨htext, hrest⟩ := Text.append_cons_inj (fun _ => ha.not_mem_marks hascii)
    (fun _ => hb.not_mem_marks hascii) hs ht h
  exact ⟨utf8Bytes_injective htext, hrest⟩

/-- A text that ends at the next unit separator is read back. -/
theorem Avoids.append_unitSeparator_inj {a b : String} (ha : Avoids a [unitSeparator])
    (hb : Avoids b [unitSeparator])
    (h : utf8Bytes a ++ unitSeparator :: x = utf8Bytes b ++ unitSeparator :: y) :
    a = b ∧ x = y := by
  obtain ⟨htext, -, hrest⟩ := ha.append_inj hb (by decide) List.mem_cons_self
    List.mem_cons_self h
  exact ⟨htext, hrest⟩

theorem IsReadable.append_inj {a b : String × String} (ha : IsReadable a) (hb : IsReadable b)
    (h : parameterBytes a.1 a.2 ++ x = parameterBytes b.1 b.2 ++ y) : a = b ∧ x = y := by
  rw [parameterBytes_append, parameterBytes_append] at h
  have hequals : [equalsSign] ⊆ [equalsSign, recordSeparator] := by decide
  obtain ⟨hname, -, hvalues⟩ := (ha.1.mono hequals).append_inj (hb.1.mono hequals)
    (by decide) List.mem_cons_self List.mem_cons_self h
  obtain ⟨hvalue, -, hrest⟩ := ha.2.append_inj hb.2 (by decide) List.mem_cons_self
    List.mem_cons_self hvalues
  exact ⟨Prod.ext hname hvalue, hrest⟩

/-- A parameter and a profile are not confused: a unit separator ends a parameter, and a record
separator a profile, and neither comes to the separator of the other before. -/
theorem IsReadable.append_ne {b : String × String} {profile : String} (hb : IsReadable b)
    (hprofile : Avoids profile separators) :
    parameterBytes b.1 b.2 ++ x ≠ utf8Bytes profile ++ recordSeparator :: y := by
  have hunit := unitSeparator_mem_parameterBytes b.1 b.2
  have hnot : unitSeparator ∉ utf8Bytes profile := fun hmem =>
    hprofile.not_mem_marks (by decide) hmem (by decide)
  intro h
  rcases List.append_eq_append_iff.1 h with ⟨rest, hlonger, -⟩ | ⟨rest, hshorter, hrest⟩
  · exact hnot (hlonger ▸ List.mem_append_left rest hunit)
  · cases rest with
    | nil =>
      rw [List.append_nil] at hshorter
      exact hnot (hshorter ▸ hunit)
    | cons c rest =>
      obtain ⟨rfl, -⟩ := List.cons.inj hrest
      exact hb.recordSeparator_not_mem (hshorter ▸ by simp)

/-- The parameters of a descriptor are read back up to its profile. -/
theorem parameters_append_inj {as bs : List (String × String)} {p q : String}
    (has : ∀ a ∈ as, IsReadable a) (hbs : ∀ b ∈ bs, IsReadable b) (hp : Avoids p separators)
    (hq : Avoids q separators)
    (h : as.flatMap (fun a => parameterBytes a.1 a.2) ++ (utf8Bytes p ++ recordSeparator :: x) =
      bs.flatMap (fun b => parameterBytes b.1 b.2) ++ (utf8Bytes q ++ recordSeparator :: y)) :
    as = bs ∧ p = q ∧ x = y := by
  induction as generalizing bs with
  | nil =>
    cases bs with
    | nil =>
      obtain ⟨hpq, -, hxy⟩ := hp.append_inj hq (by decide) (by decide) (by decide) h
      exact ⟨rfl, hpq, hxy⟩
    | cons b bs =>
      rw [List.flatMap_cons, List.append_assoc] at h
      exact absurd h.symm ((hbs b List.mem_cons_self).append_ne hp)
  | cons a as ih =>
    cases bs with
    | nil =>
      rw [List.flatMap_cons, List.append_assoc] at h
      exact absurd h ((has a List.mem_cons_self).append_ne hq)
    | cons b bs =>
      obtain ⟨ha, hlater⟩ := List.forall_mem_cons.mp has
      obtain ⟨hb, hlater'⟩ := List.forall_mem_cons.mp hbs
      simp only [List.flatMap_cons, List.append_assoc] at h
      obtain ⟨rfl, hrest⟩ := ha.append_inj hb h
      obtain ⟨rfl, hpq, hxy⟩ := ih hlater hlater' hrest
      exact ⟨rfl, hpq, hxy⟩

end Fields

namespace Descriptor

/-- A descriptor is read back, with the bytes after it. -/
theorem Separable.append_inj {d e : Descriptor} {x y : List UInt8} (hd : d.Separable)
    (he : e.Separable) (h : d.digestBytes ++ x = e.digestBytes ++ y) :
    d.filledIn = e.filledIn ∧ x = y := by
  simp only [digestBytes, List.append_assoc, List.singleton_append] at h
  obtain ⟨hselector, h⟩ := hd.selector.append_unitSeparator_inj he.selector h
  obtain ⟨htype, h⟩ := hd.declaredType.append_unitSeparator_inj he.declaredType h
  obtain ⟨hresource, h⟩ := hd.resource.append_unitSeparator_inj he.resource h
  obtain ⟨hparameters, hprofile, hrest⟩ :=
    parameters_append_inj hd.parameters he.parameters hd.profile he.profile h
  refine ⟨?_, hrest⟩
  obtain ⟨dselector, dtype, dresource, ⟨dentries, dascending⟩, dprofile⟩ := d
  obtain ⟨eselector, etype, eresource, ⟨eentries, eascending⟩, eprofile⟩ := e
  simp only at hselector hparameters hprofile
  subst hselector hparameters hprofile
  simp only [filledIn, htype, hresource]

theorem digestBytes_filledIn (d : Descriptor) : d.filledIn.digestBytes = d.digestBytes := rfl

theorem digestBytes_ne_nil (d : Descriptor) : d.digestBytes ≠ [] := by
  simp [digestBytes]

end Descriptor

theorem digestBytes_map_filledIn (ds : List Descriptor) :
    digestBytes (ds.map Descriptor.filledIn) = digestBytes ds := by
  simp [digestBytes, List.flatMap_map, Descriptor.digestBytes_filledIn]

/-- The byte streams of separable descriptors are equal exactly if the descriptors are, with absent
types and resources read as empty ones. -/
theorem digestBytes_eq_iff {ds es : List Descriptor} (hds : ∀ d ∈ ds, d.Separable)
    (hes : ∀ e ∈ es, e.Separable) :
    digestBytes ds = digestBytes es ↔
      ds.map Descriptor.filledIn = es.map Descriptor.filledIn := by
  constructor
  · intro h
    induction ds generalizing es with
    | nil =>
      cases es with
      | nil => rfl
      | cons e es => exact absurd (List.append_eq_nil_iff.mp h.symm).1 e.digestBytes_ne_nil
    | cons d ds ih =>
      cases es with
      | nil => exact absurd (List.append_eq_nil_iff.mp h).1 d.digestBytes_ne_nil
      | cons e es =>
        obtain ⟨hd, hds⟩ := List.forall_mem_cons.mp hds
        obtain ⟨he, hes⟩ := List.forall_mem_cons.mp hes
        obtain ⟨hhead, hrest⟩ := hd.append_inj he h
        rw [List.map_cons, List.map_cons, hhead, ih hds hes hrest]
  · intro h
    rw [← digestBytes_map_filledIn ds, h, digestBytes_map_filledIn es]

/-- Two descriptors, of which the first has a record separator in its selector, a unit separator in
the name of a parameter and an equals sign in the value of another one. -/
def stampedDescriptors (resource : Option String) (value : String) : List Descriptor := [
  { selector := "p\x1eb", resource
    parameters := .ofList [("modes\x1f", "tree"), ("where", value)] },
  { selector := "order item", declaredType := some "xsl", profile := "html" }]

/-- An empty resource leaves the byte stream as it is, and another value of a parameter does not. -/
theorem digestBytes_stampedDescriptors :
    digestBytes (stampedDescriptors none "a=b") =
      digestBytes (stampedDescriptors (some "") "a=b") ∧
    digestBytes (stampedDescriptors none "a=b") ≠ digestBytes (stampedDescriptors none "a=c") := by
  have hnone : ∀ d ∈ stampedDescriptors none "a=b", d.Separable := by decide +kernel
  have hempty : ∀ d ∈ stampedDescriptors (some "") "a=b", d.Separable := by decide +kernel
  have hother : ∀ d ∈ stampedDescriptors none "a=c", d.Separable := by decide +kernel
  refine ⟨(digestBytes_eq_iff hnone hempty).mpr (by decide +kernel), ?_⟩
  rw [ne_eq, digestBytes_eq_iff hnone hother]
  decide +kernel

/-- Lists in pairs that are written the same. A type is absent or empty, or an equals sign stands in
the value of a parameter or in its name. A selector goes on with what looks like the type, a type
with what looks like the resource, and a resource, a value or a profile with what looks like a
parameter. The name or the value of a parameter, or a profile, goes on with what looks like the next
descriptor. -/
def confusedDescriptors : List (List Descriptor × List Descriptor) := [
  ([{ selector := "p" }], [{ selector := "p", declaredType := some "" }]),
  ([{ parameters := .ofList [("a", "b=c")] }], [{ parameters := .ofList [("a=b", "c")] }]),
  ([{ selector := "p\x1fxsl", resource := some "a=b" }],
    [{ selector := "p", declaredType := some "xsl", parameters := .ofList [("a", "b")] }]),
  ([{ declaredType := some "xsl\x1fp", resource := some "a=b" }],
    [{ declaredType := some "xsl", resource := some "p", parameters := .ofList [("a", "b")] }]),
  ([{ resource := some "p\x1fa=b" }],
    [{ resource := some "p", parameters := .ofList [("a", "b")] }]),
  ([{ parameters := .ofList [("a", "b\x1fc=d")] }],
    [{ parameters := .ofList [("a", "b"), ("c", "d")] }]),
  ([{ profile := "a=b\x1fhtml" }], [{ parameters := .ofList [("a", "b")], profile := "html" }]),
  ([{ parameters := .ofList [("a\x1eb", "c")], profile := "html" },
      { selector := "p", declaredType := some "xsl", resource := some "d=e" }],
    [{ profile := "a" },
      { selector := "b=c", declaredType := some "html\x1ep", resource := some "xsl"
        parameters := .ofList [("d", "e")] }]),
  ([{ parameters := .ofList [("a", "b\x1ep")], profile := "xsl" }, { resource := some "c=d" }],
    [{ profile := "a=b" },
      { selector := "p", declaredType := some "xsl\x1e", parameters := .ofList [("c", "d")] }]),
  ([{ selector := "p", profile := "html\x1eb\x1f\x1f\x1f" }],
    [{ selector := "p", profile := "html" }, { selector := "b" }])]

theorem digestBytes_confusedDescriptors :
    (∀ pair ∈ confusedDescriptors, pair.1 ≠ pair.2 ∧ digestBytes pair.1 = digestBytes pair.2) ∧
    ¬ ∀ ds es : List Descriptor, digestBytes ds = digestBytes es → ds = es := by
  have hconfused : ∀ pair ∈ confusedDescriptors,
      pair.1 ≠ pair.2 ∧ digestBytes pair.1 = digestBytes pair.2 := by
    decide +kernel
  refine ⟨hconfused, fun hinjective => ?_⟩
  obtain ⟨hne, hsame⟩ := hconfused _ List.mem_cons_self
  exact hne (hinjective _ _ hsame)

end DeliveryPipeline
