import DeliveryPipeline.Schema

/-!
# Element declarations

A document type definition is read for its element declarations `<!ELEMENT name content>` alone,
after its comments are taken out. Each declared element has a content model, and the categories of
the schema are sets of content models. A text without a declaration, or with two declarations of one
name, is refused.
-/
namespace DeliveryPipeline

inductive ContentModel where
  | empty
  | any
  | textOnly
  | mixed
  | children
deriving DecidableEq, Repr

namespace ContentModel

/-- The model that a declared content denotes, in any ASCII case and without its blanks. -/
def ofContent (content : List Char) : ContentModel :=
  let text := String.ofList ((content.filter (!Text.isBlank ·)).map Char.toUpper)
  if text = "EMPTY" then empty
  else if text = "ANY" then any
  else if text = "(#PCDATA)" ∨ text = "(#PCDATA)*" then textOnly
  else if (Text.after? "(#PCDATA|" text).isSome then mixed
  else children

def isIn (m : ContentModel) : Category → Bool
  | .empty => m == empty
  | .notEmpty => m != empty
  | .any => m == any
  | .notAny => m != any
  | .mixed => m == mixed
  | .notMixed => m != mixed
  | .textOnly => m == textOnly
  | .notTextOnly => m != textOnly

end ContentModel

/-- The declared elements with their content models, in declaration order. -/
structure Dtd where
  elements : List (String × ContentModel)
deriving DecidableEq, Repr

namespace Dtd

inductive Fault where
  | duplicateElement (name : String)
  | noElements
deriving DecidableEq, Repr

def Fault.message : Fault → String
  | duplicateElement name => "element '" ++ name ++ "' is declared more than once"
  | noElements => "schema declares no elements"

/-- What follows the first occurrence of `mark`. -/
def afterFirst? (mark : List Char) : List Char → Option (List Char)
  | [] => none
  | c :: rest =>
    match Text.afterPrefix? mark (c :: rest) with
    | some tail => some tail
    | none => afterFirst? mark rest

theorem length_of_afterPrefix? {mark cs tail : List Char}
    (h : Text.afterPrefix? mark cs = some tail) : mark.length + tail.length = cs.length := by
  rw [Text.afterPrefix?_eq_some_iff.1 h, List.length_append]

theorem length_le_of_afterFirst? {mark cs tail : List Char}
    (h : afterFirst? mark cs = some tail) : tail.length ≤ cs.length := by
  induction cs with
  | nil => simp [afterFirst?] at h
  | cons c cs ih =>
    unfold afterFirst? at h
    split at h
    next t ht =>
      have := length_of_afterPrefix? ht
      simp only [Option.some.injEq] at h
      subst h; omega
    next => have := ih h; simp only [List.length_cons]; omega

def commentOpening : List Char := ['<', '!', '-', '-']

def commentClosing : List Char := ['-', '-', '>']

/-- What follows a comment that starts here and is closed. -/
def afterComment? (cs : List Char) : Option (List Char) :=
  (Text.afterPrefix? commentOpening cs).bind (afterFirst? commentClosing)

theorem length_lt_of_afterComment? {cs tail : List Char} (h : afterComment? cs = some tail) :
    tail.length < cs.length := by
  obtain ⟨body, hb, ht⟩ := Option.bind_eq_some_iff.1 h
  have := length_of_afterPrefix? hb
  have := length_le_of_afterFirst? ht
  simp only [commentOpening, List.length_cons, List.length_nil] at *
  omega

/-- A text without its comments. A comment that is never closed is no comment. -/
def withoutComments (cs : List Char) : List Char :=
  match cs with
  | [] => []
  | c :: rest =>
    match h : afterComment? (c :: rest) with
    | some tail =>
      have : tail.length < rest.length + 1 := length_lt_of_afterComment? h
      withoutComments tail
    | none => c :: withoutComments rest
termination_by cs.length

structure Declaration where
  name : List Char
  content : List Char
deriving DecidableEq, Repr

/-- Names end at a blank or a closing bracket. -/
def isNameChar (c : Char) : Bool :=
  !Text.isBlank c && c != '>'

def declarationOpening : List Char := ['<', '!', 'E', 'L', 'E', 'M', 'E', 'N', 'T']

/-- The content after a gap, which ends at the first closing bracket, and what follows it. When the
bracket stands right after the gap, the last of two or more blanks is the content. -/
def content? (gap body : List Char) : Option (List Char × List Char) :=
  match body.dropWhile (· != '>') with
  | [] => none
  | _ :: tail =>
    match body.takeWhile (· != '>') with
    | [] => if 2 ≤ gap.length then some (gap.drop (gap.length - 1), tail) else none
    | content => some (content, tail)

/-- The declaration that starts here, and what follows it. -/
def declaration? (cs : List Char) : Option (Declaration × List Char) :=
  match Text.afterPrefix? declarationOpening cs with
  | none => none
  | some body =>
    let named := body.dropWhile Text.isBlank
    let name := named.takeWhile isNameChar
    let afterName := named.dropWhile isNameChar
    let gap := afterName.takeWhile Text.isBlank
    if named.length = body.length ∨ name.isEmpty ∨ gap.isEmpty then none
    else (content? gap (afterName.dropWhile Text.isBlank)).map fun r => (⟨name, r.1⟩, r.2)

theorem length_dropWhile_le (p : Char → Bool) (cs : List Char) :
    (cs.dropWhile p).length ≤ cs.length :=
  (List.dropWhile_suffix p).length_le

theorem length_le_of_content? {gap body content tail : List Char}
    (h : content? gap body = some (content, tail)) : tail.length ≤ body.length := by
  have hd := length_dropWhile_le (· != '>') body
  unfold content? at h
  split at h
  · simp at h
  next hb =>
    rw [hb] at hd
    simp only [List.length_cons] at hd
    split at h
    · split at h <;> simp at h
      obtain ⟨-, rfl⟩ := h
      omega
    · simp only [Option.some.injEq, Prod.mk.injEq] at h
      obtain ⟨-, rfl⟩ := h
      omega

theorem length_lt_of_declaration? {cs tail : List Char} {d : Declaration}
    (h : declaration? cs = some (d, tail)) : tail.length < cs.length := by
  unfold declaration? at h
  split at h
  · simp at h
  next body hb =>
    have hlen := length_of_afterPrefix? hb
    simp only at h
    split at h
    · simp at h
    · obtain ⟨⟨content, rest⟩, hc, hr⟩ := Option.map_eq_some_iff.1 h
      simp only [Prod.mk.injEq] at hr
      obtain ⟨-, rfl⟩ := hr
      have := length_le_of_content? hc
      have h1 := length_dropWhile_le Text.isBlank
        ((body.dropWhile Text.isBlank).dropWhile isNameChar)
      have h2 := length_dropWhile_le isNameChar (body.dropWhile Text.isBlank)
      have h3 := length_dropWhile_le Text.isBlank body
      simp only [declarationOpening, List.length_cons, List.length_nil] at hlen
      omega

/-- The declarations of a text, from left to right and without overlap. -/
def declarations (cs : List Char) : List Declaration :=
  match cs with
  | [] => []
  | c :: rest =>
    match h : declaration? (c :: rest) with
    | some (d, tail) =>
      have : tail.length < rest.length + 1 := length_lt_of_declaration? h
      d :: declarations tail
    | none => declarations rest
termination_by cs.length

/-- The first name that was seen before. -/
def firstRepeat? (seen : List String) : List String → Option String
  | [] => none
  | name :: rest => if name ∈ seen then some name else firstRepeat? (name :: seen) rest

def parse (text : String) : Except Fault Dtd :=
  let elements := (declarations (withoutComments text.toList)).map fun d =>
    (String.ofList d.name, ContentModel.ofContent d.content)
  match firstRepeat? [] (elements.map (·.1)) with
  | some name => .error (.duplicateElement name)
  | none => if elements.isEmpty then .error .noElements else .ok ⟨elements⟩

def contentModel? (dtd : Dtd) (name : String) : Option ContentModel :=
  dtd.elements.lookup name

def classify (dtd : Dtd) (c : Category) : List String :=
  (dtd.elements.filter fun e => e.2.isIn c).map (·.1)

def schema (dtd : Dtd) : Schema := ⟨dtd.classify⟩

end Dtd

end DeliveryPipeline
