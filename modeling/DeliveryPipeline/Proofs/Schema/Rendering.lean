import DeliveryPipeline.Error
import DeliveryPipeline.Proofs.Schema.Comments
import DeliveryPipeline.Proofs.Schema.Declarations

/-!
# Reading back what is written

Declarations can be written in many layouts: with gaps of any blanks, and with blanks and comments
around them, also with comments that hold declarations themselves. All these texts are read as the
declarations that were written.
-/
namespace DeliveryPipeline

/-- The contents of a model, in capitals and without blanks. -/
def ContentModel.Covers : ContentModel → String → Prop
  | empty, text => text = "EMPTY"
  | any, text => text = "ANY"
  | textOnly, text => text = "(#PCDATA)" ∨ text = "(#PCDATA)*"
  | mixed, text => "(#PCDATA|".toList <+: text.toList
  | children, text => text ≠ "EMPTY" ∧ text ≠ "ANY" ∧ text ≠ "(#PCDATA)" ∧ text ≠ "(#PCDATA)*" ∧
    ¬ "(#PCDATA|".toList <+: text.toList

/-- No content has two models. -/
theorem ContentModel.Covers.unique {m m' : ContentModel} {text : String} (h : m.Covers text)
    (h' : m'.Covers text) : m = m' := by
  have hmixed (hlead : "(#PCDATA|".toList <+: text.toList) :
      text ≠ "EMPTY" ∧ text ≠ "ANY" ∧ text ≠ "(#PCDATA)" ∧ text ≠ "(#PCDATA)*" := by
    refine ⟨?_, ?_, ?_, ?_⟩ <;> rintro rfl <;> exact absurd hlead (by decide)
  cases m <;> cases m' <;> simp only [Covers] at h h' <;> grind

namespace Dtd

/-- The content without its blanks, in capitals. -/
def Declaration.compactContent (d : Declaration) : String :=
  String.ofList (d.solidContent.map Char.toUpper)

theorem isSome_after?_iff {lead text : String} :
    (Text.after? lead text).isSome = true ↔ lead.toList <+: text.toList := by
  rw [Text.after?, Option.isSome_map, Option.isSome_iff_exists]
  simp only [Text.afterPrefix?_eq_some_iff]
  constructor
  · rintro ⟨tail, htail⟩
    exact ⟨tail, htail.symm⟩
  · rintro ⟨tail, htail⟩
    exact ⟨tail, htail.symm⟩

theorem covers_element (d : Declaration) : d.element.2.Covers d.compactContent := by
  have hmodel : d.element.2 =
      if d.compactContent = "EMPTY" then .empty
      else if d.compactContent = "ANY" then .any
      else if d.compactContent = "(#PCDATA)" ∨ d.compactContent = "(#PCDATA)*" then .textOnly
      else if (Text.after? "(#PCDATA|" d.compactContent).isSome then .mixed
      else .children := rfl
  rw [hmodel]
  split
  next h => exact h
  next hempty =>
    split
    next h => exact h
    next hany =>
      split
      next h => exact h
      next htext =>
        rw [not_or] at htext
        split
        next h => exact isSome_after?_iff.1 h
        next h => exact ⟨hempty, hany, htext.1, htext.2, mt isSome_after?_iff.2 h⟩

theorem element_snd_eq_iff (d : Declaration) (model : ContentModel) :
    d.element.2 = model ↔ model.Covers d.compactContent := by
  constructor
  · rintro rfl
    exact covers_element d
  · exact (covers_element d).unique

/-- Blanks and comments in any order. The body of a comment is any text without a closing mark. -/
inductive Filler : List Char → Prop
  | nil : Filler []
  | blank {c : Char} {rest : List Char} (hc : Text.isBlank c = true) (hrest : Filler rest) :
    Filler (c :: rest)
  | comment {body rest : List Char} (hbody : ¬ commentClosing <:+: body) (hrest : Filler rest) :
    Filler (commentOpening ++ body ++ commentClosing ++ rest)

/-- The texts that write declarations one after another, with blanks and comments around them. No
opening bracket stands in a name or in a content. -/
inductive Renders : List Declaration → List Char → Prop
  | nil {filler : List Char} (hfiller : Filler filler) : Renders [] filler
  | cons {d : Declaration} {ds : List Declaration} {filler inside rest : List Char}
    (hfiller : Filler filler) (hwritten : Written d inside) (hname : '<' ∉ d.name)
    (hcontent : '<' ∉ d.content) (hrest : Renders ds rest) :
    Renders (d :: ds) (filler ++ (declarationOpening ++ inside ++ '>' :: rest))

theorem Written.opening_not_mem {d : Declaration} {inside : List Char} (h : Written d inside)
    (hname : '<' ∉ d.name) (hcontent : '<' ∉ d.content) : '<' ∉ inside := by
  obtain ⟨first, second, hfirst, hsecond, rfl⟩ := h.exists_gaps
  simp [hfirst.opening_not_mem, hsecond.opening_not_mem, hname, hcontent]

/-- Of blanks and comments the blanks are left. -/
theorem Filler.exists_withoutComments {filler : List Char} (h : Filler filler) :
    ∃ blanks, (∀ c ∈ blanks, Text.isBlank c = true) ∧
      ∀ rest, withoutComments (filler ++ rest) = blanks ++ withoutComments rest := by
  induction h with
  | nil => exact ⟨[], by simp, fun _ => rfl⟩
  | @blank c cs hc _ ih =>
    obtain ⟨blanks, hblanks, hrest⟩ := ih
    refine ⟨c :: blanks, List.forall_mem_cons.2 ⟨hc, hblanks⟩, fun rest => ?_⟩
    rw [List.cons_append, withoutComments_cons (afterComment?_of_ne (ne_opening_of_isBlank hc)),
      hrest, List.cons_append]
  | @comment body cs hbody _ ih =>
    obtain ⟨blanks, hblanks, hrest⟩ := ih
    refine ⟨blanks, hblanks, fun rest => ?_⟩
    rw [List.append_assoc _ cs rest, withoutComments_comment hbody, hrest]

/-- No declaration begins at a blank. -/
theorem declarations_append_of_isBlank {blanks : List Char}
    (h : ∀ c ∈ blanks, Text.isBlank c = true) (rest : List Char) :
    declarations (blanks ++ rest) = declarations rest := by
  induction blanks with
  | nil => rfl
  | cons c blanks ih =>
    obtain ⟨hc, hblanks⟩ := List.forall_mem_cons.1 h
    rw [List.cons_append, declarations_cons (declaration?_of_ne (ne_opening_of_isBlank hc)),
      ih hblanks]

/-- The declarations that a text writes are those that are read in it without its comments. -/
theorem Renders.elements_eq {ds : List Declaration} {cs : List Char} (h : Renders ds cs) :
    (declarations (withoutComments cs)).map Declaration.element = ds.map Declaration.element := by
  induction h with
  | nil hfiller =>
    obtain ⟨blanks, hblanks, hrest⟩ := hfiller.exists_withoutComments
    have hall := hrest []
    rw [List.append_nil, withoutComments_nil] at hall
    rw [hall, declarations_append_of_isBlank hblanks, declarations_nil]
  | @cons d ds filler inside rest hfiller hwritten hname hcontent _ ih =>
    obtain ⟨blanks, hblanks, hrest⟩ := hfiller.exists_withoutComments
    obtain ⟨read, hread, helement⟩ := exists_declaration?_of_written hwritten (withoutComments rest)
    have hkept : '<' ∉ inside ++ ['>'] := by
      simp [hwritten.opening_not_mem hname hcontent]
    have hdeclared : withoutComments (declarationOpening ++ inside ++ '>' :: rest) =
        declarationOpening ++ inside ++ '>' :: withoutComments rest := by
      have htext := withoutComments_append_of_not_mem hkept rest
      simpa [List.append_assoc, withoutComments_declarationOpening] using htext
    rw [hrest, declarations_append_of_isBlank hblanks, hdeclared,
      declarations_of_declaration? hread, List.map_cons, List.map_cons, helement, ih]

/-- A text that writes declarations is read as their elements, in their order and with the models
that cover their contents, if no two of them have the same name. If two have, the text is refused
for the first name that is written a second time. -/
theorem read_of_renders {ds : List Declaration} {text : String} (hne : ds ≠ [])
    (hrenders : Renders ds text.toList) :
    let names := ds.map fun d => String.ofList d.name
    (names.Nodup → read text = .ok ⟨ds.map Declaration.element⟩ ∧
      ∀ d ∈ ds, ∀ model, d.element = (String.ofList d.name, model) ↔
        model.Covers d.compactContent) ∧
    (¬ names.Nodup → ∃ seen name rest, names = seen ++ name :: rest ∧ seen.Nodup ∧ name ∈ seen ∧
      read text = .error (.parse (.schema (.duplicateElement name)))) := by
  intro names
  have helements : declaredElements text = ds.map Declaration.element := hrenders.elements_eq
  have hnames : (ds.map Declaration.element).map (·.1) = names := List.map_map
  constructor
  · intro hnodup
    have hparse : parse text = .ok ⟨ds.map Declaration.element⟩ := by
      rw [parse_eq_ok_iff, helements, hnames]
      exact ⟨rfl, hnodup, by simpa using hne⟩
    refine ⟨by rw [read, hparse]; rfl, fun d _ model => ?_⟩
    rw [← element_snd_eq_iff, Prod.ext_iff]
    exact and_iff_right rfl
  · intro hrepeat
    obtain ⟨name, hname⟩ : ∃ name, firstRepeat? [] names = some name := by
      rw [← Option.ne_none_iff_exists', Ne, firstRepeat?_eq_none_iff]
      simpa using hrepeat
    have hparse : parse text = .error (.duplicateElement name) := by
      rw [parse_eq, helements, hnames, hname]
    obtain ⟨seen, rest, hsplit, hseen, hmem⟩ := parse_eq_duplicate_iff.1 hparse
    rw [helements, hnames] at hsplit
    exact ⟨seen, name, rest, hsplit, hseen, hmem, by rw [read, hparse]; rfl⟩

/-- An empty element, as it is written most plainly. -/
def breakDeclaration : Declaration := ⟨"br".toList, "EMPTY".toList⟩

/-- An element of mixed content, in small letters and with blanks. -/
def paragraphDeclaration : Declaration := ⟨"p".toList, "( #pcdata | br )* ".toList⟩

/-- Both are written behind a comment that holds another declaration, and a comment whose body is a
bracket stands between them. -/
def commentedText : String :=
  "<!-- <!ELEMENT p ANY> --><!ELEMENT br EMPTY>\n<!-->-->\t<!ELEMENT\tp  ( #pcdata | br )* >"

theorem written_breakDeclaration : Written breakDeclaration " br EMPTY".toList :=
  ⟨by decide +kernel, List.all_eq_true.1 (by decide +kernel), by decide +kernel,
    by decide +kernel, [' '], [' '], by decide, by decide, by decide +kernel⟩

theorem written_paragraphDeclaration :
    Written paragraphDeclaration "\tp  ( #pcdata | br )* ".toList :=
  ⟨by decide +kernel, List.all_eq_true.1 (by decide +kernel), by decide +kernel,
    by decide +kernel, ['\t'], [' ', ' '], by decide, by decide, by decide +kernel⟩

theorem renders_commentedText :
    Renders [breakDeclaration, paragraphDeclaration] commentedText.toList := by
  have hlead : Filler (commentOpening ++ " <!ELEMENT p ANY> ".toList ++ commentClosing ++ []) :=
    .comment (by decide +kernel) .nil
  have hbetween : Filler ('\n' :: (commentOpening ++ ['>'] ++ commentClosing ++ ['\t'])) :=
    .blank (by decide) (.comment (by decide) (.blank (by decide) .nil))
  have htext : commentedText.toList =
      (commentOpening ++ " <!ELEMENT p ANY> ".toList ++ commentClosing ++ []) ++
        (declarationOpening ++ " br EMPTY".toList ++ '>' ::
          ('\n' :: (commentOpening ++ ['>'] ++ commentClosing ++ ['\t']) ++
            (declarationOpening ++ "\tp  ( #pcdata | br )* ".toList ++ '>' :: []))) := by
    decide +kernel
  rw [htext]
  exact .cons hlead written_breakDeclaration (by decide +kernel) (by decide +kernel)
    (.cons hbetween written_paragraphDeclaration (by decide +kernel) (by decide +kernel)
      (.nil .nil))

theorem renders_repeatedText :
    Renders [breakDeclaration, breakDeclaration]
      "<!ELEMENT br EMPTY><!ELEMENT br EMPTY>".toList := by
  have htext : "<!ELEMENT br EMPTY><!ELEMENT br EMPTY>".toList =
      [] ++ (declarationOpening ++ " br EMPTY".toList ++ '>' ::
        ([] ++ (declarationOpening ++ " br EMPTY".toList ++ '>' :: []))) := by
    decide +kernel
  rw [htext]
  exact .cons .nil written_breakDeclaration (by decide +kernel) (by decide +kernel)
    (.cons .nil written_breakDeclaration (by decide +kernel) (by decide +kernel) (.nil .nil))

/-- The commented text is read as its two elements, and a text that declares one
twice is refused. -/
theorem read_commentedText_and_repeatedText :
    Renders [breakDeclaration, paragraphDeclaration] commentedText.toList ∧
    read commentedText = .ok ⟨[("br", .empty), ("p", .mixed)]⟩ ∧
    Renders [breakDeclaration, breakDeclaration]
      "<!ELEMENT br EMPTY><!ELEMENT br EMPTY>".toList ∧
    read "<!ELEMENT br EMPTY><!ELEMENT br EMPTY>" =
      .error (.parse (.schema (.duplicateElement "br"))) := by
  refine ⟨renders_commentedText, ?_, renders_repeatedText, ?_⟩
  · have hread := (read_of_renders (by simp) renders_commentedText).1 (by decide +kernel)
    rw [hread.1]
    decide +kernel
  · obtain ⟨seen, name, rest, hnames, hseen, hmem, hread⟩ :=
      (read_of_renders (by simp) renders_repeatedText).2 (by decide +kernel)
    have hname : name ∈ [breakDeclaration, breakDeclaration].map fun d => String.ofList d.name := by
      rw [hnames]
      simp
    have hbreak : name = "br" := by
      simpa [breakDeclaration] using hname
    rw [hread, hbreak]

end Dtd

end DeliveryPipeline
