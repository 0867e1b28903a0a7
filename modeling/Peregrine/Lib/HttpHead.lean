import Mathlib.Data.List.DropRight

/-!
# The heads of HTTP messages

A head is a start line and header fields, each ended by CRLF, and a blank line.
No line contains a CR or an LF and none but the last is empty, so a head ends
where its blank line is and can be cut off the front of a stream in one way
only: `block_append_inj` for lines, `ResponseHead.bytes_append_inj` for the head
of a response.  That of a request can be read in one way, too, since neither its
method nor its target contains a blank (`RequestHead.bytes_append_inj`).
-/

namespace HttpHead

def crlf : List UInt8 := [13, 10]

/-- Neither CR nor LF. -/
def Plain (bs : List UInt8) : Prop := ∀ b ∈ bs, b ≠ 13 ∧ b ≠ 10

instance (bs : List UInt8) : Decidable (Plain bs) :=
  List.decidableBAll (fun b => b ≠ 13 ∧ b ≠ 10) bs

theorem Plain.append {as bs : List UInt8} (ha : Plain as) (hb : Plain bs) : Plain (as ++ bs) := by
  intro b hm
  rcases List.mem_append.mp hm with h | h
  · exact ha b h
  · exact hb b h

theorem before_append_inj {sep : UInt8} {as bs r r' : List UInt8} (ha : sep ∉ as) (hb : sep ∉ bs)
    (h : as ++ sep :: r = bs ++ sep :: r') : as = bs ∧ r = r' := by
  induction as generalizing bs with
  | nil =>
    cases bs with
    | nil => exact ⟨rfl, (List.cons.inj h).2⟩
    | cons b bs => exact absurd ((List.cons.inj h).1 ▸ List.mem_cons_self) hb
  | cons a as ih =>
    cases bs with
    | nil => exact absurd ((List.cons.inj h).1 ▸ List.mem_cons_self) ha
    | cons b bs =>
      obtain ⟨rfl, ht⟩ := List.cons.inj h
      obtain ⟨rfl, hr⟩ := ih (fun hm => ha (List.mem_cons_of_mem _ hm))
        (fun hm => hb (List.mem_cons_of_mem _ hm)) ht
      exact ⟨rfl, hr⟩

theorem Plain.not_mem_cr {bs : List UInt8} (h : Plain bs) : 13 ∉ bs := fun hm => (h 13 hm).1 rfl

theorem line_append_inj {as bs r r' : List UInt8} (ha : Plain as) (hb : Plain bs)
    (h : as ++ crlf ++ r = bs ++ crlf ++ r') : as = bs ∧ r = r' := by
  rw [List.append_assoc, List.append_assoc] at h
  obtain ⟨hl, hr⟩ := before_append_inj ha.not_mem_cr hb.not_mem_cr h
  exact ⟨hl, (List.cons.inj hr).2⟩

/-- Lines, each with its CRLF, and a blank line. -/
def block : List (List UInt8) → List UInt8
  | [] => crlf
  | l :: ls => l ++ crlf ++ block ls

/-- **Lines up to the blank one come off the front in one way.** -/
theorem block_append_inj {ls ls' : List (List UInt8)} {r r' : List UInt8}
    (hp : ∀ l ∈ ls, Plain l ∧ l ≠ []) (hp' : ∀ l ∈ ls', Plain l ∧ l ≠ [])
    (h : block ls ++ r = block ls' ++ r') : ls = ls' ∧ r = r' := by
  have hnil : Plain [] := nofun
  induction ls generalizing ls' with
  | nil =>
    cases ls' with
    | nil => exact ⟨rfl, (line_append_inj hnil hnil h).2⟩
    | cons l ls' =>
      rw [block, block, List.append_assoc (l ++ crlf)] at h
      exact absurd (line_append_inj hnil (hp' l List.mem_cons_self).1 h).1.symm
        (hp' l List.mem_cons_self).2
  | cons l ls ih =>
    cases ls' with
    | nil =>
      rw [block, block, List.append_assoc (l ++ crlf)] at h
      exact absurd (line_append_inj (hp l List.mem_cons_self).1 hnil h).1
        (hp l List.mem_cons_self).2
    | cons l' ls' =>
      rw [block, block, List.append_assoc (l ++ crlf), List.append_assoc (l' ++ crlf)] at h
      obtain ⟨rfl, ht⟩ := line_append_inj (hp l List.mem_cons_self).1
        (hp' l' List.mem_cons_self).1 h
      obtain ⟨rfl, hr⟩ := ih (fun x hx => hp x (List.mem_cons_of_mem _ hx))
        (fun x hx => hp' x (List.mem_cons_of_mem _ hx)) ht
      exact ⟨rfl, hr⟩

/-! ### Fields -/

/-- The bytes of a token: visible ASCII without delimiters. -/
def isTokenByte (b : UInt8) : Bool :=
  0x21 ≤ b && b ≤ 0x7E && !([0x22, 0x28, 0x29, 0x2C, 0x2F, 0x3A, 0x3B, 0x3C, 0x3D, 0x3E, 0x3F, 0x40,
    0x5B, 0x5C, 0x5D, 0x7B, 0x7D] : List UInt8).contains b

def isDigit (b : UInt8) : Bool := 0x30 ≤ b && b ≤ 0x39

structure Field where
  name : List UInt8
  value : List UInt8
  name_ne : name ≠ []
  token : ∀ b ∈ name, isTokenByte b = true
  plain : Plain value

def Field.line (f : Field) : List UInt8 := f.name ++ 0x3A :: f.value

/-- The value of a field without the blanks around it. -/
def Field.content (f : Field) : List UInt8 :=
  let blank := fun b : UInt8 => b == 0x20 || b == 0x09
  (f.value.dropWhile blank).rdropWhile blank

/-- **A line is one field**: its name ends at the first colon. -/
theorem Field.line_inj {f g : Field} (h : f.line = g.line) : f = g := by
  have hcolon : ∀ k : Field, 0x3A ∉ k.name := fun k hm => absurd (k.token _ hm) (by decide)
  obtain ⟨hname, hvalue⟩ := before_append_inj (hcolon f) (hcolon g) h
  cases f
  cases g
  cases hname
  cases hvalue
  rfl

/-! ### Heads of responses -/

/-- The head of an HTTP/1.x response; servers that have no reason to give may
leave out the blank before it. -/
structure ResponseHead where
  minor : UInt8
  status : List UInt8
  reason : Option (List UInt8)
  fields : List Field
  minor_digit : isDigit minor = true
  status_length : status.length = 3
  status_digits : ∀ b ∈ status, isDigit b = true
  reason_plain : ∀ r ∈ reason, Plain r

/-- `HTTP/1.` -/
def version : List UInt8 := [0x48, 0x54, 0x54, 0x50, 0x2F, 0x31, 0x2E]

def reasonBytes : Option (List UInt8) → List UInt8
  | none => []
  | some r => 0x20 :: r

def ResponseHead.statusLine (h : ResponseHead) : List UInt8 :=
  version ++ [h.minor, 0x20] ++ h.status ++ reasonBytes h.reason

def ResponseHead.lines (h : ResponseHead) : List (List UInt8) :=
  h.statusLine :: h.fields.map Field.line

/-- The head with the blank line that ends it. -/
def ResponseHead.bytes (h : ResponseHead) : List UInt8 := block h.lines

theorem isDigit_plain {b : UInt8} (h : isDigit b = true) : b ≠ 13 ∧ b ≠ 10 := by
  constructor <;> rintro rfl <;> exact absurd h (by decide)

theorem isTokenByte_plain {b : UInt8} (h : isTokenByte b = true) : b ≠ 13 ∧ b ≠ 10 := by
  constructor <;> rintro rfl <;> exact absurd h (by decide)

theorem Field.line_plain (f : Field) : Plain f.line ∧ f.line ≠ [] := by
  refine ⟨Plain.append (fun b hb => isTokenByte_plain (f.token b hb)) ?_, by simp [Field.line]⟩
  intro b hb
  rcases List.mem_cons.mp hb with rfl | hb
  · decide
  · exact f.plain b hb

theorem ResponseHead.plain_statusLine (h : ResponseHead) : Plain h.statusLine := by
  have hreason : Plain (reasonBytes h.reason) := by
    cases hr : h.reason with
    | none => exact nofun
    | some r =>
      intro b hb
      rcases List.mem_cons.mp hb with rfl | hb
      · decide
      · exact h.reason_plain r hr b hb
  have hminor : Plain [h.minor, 0x20] := by
    intro b hb
    rcases List.mem_cons.mp hb with rfl | hb
    · exact isDigit_plain h.minor_digit
    · obtain rfl := List.mem_singleton.mp hb
      decide
  exact (Plain.append (Plain.append (by decide) hminor)
    fun b hb => isDigit_plain (h.status_digits b hb)).append hreason

theorem ResponseHead.lines_plain (h : ResponseHead) : ∀ l ∈ h.lines, Plain l ∧ l ≠ [] := by
  intro l hl
  rcases List.mem_cons.mp hl with rfl | hl
  · exact ⟨h.plain_statusLine, by simp [statusLine, version]⟩
  · obtain ⟨f, -, rfl⟩ := List.mem_map.mp hl
    exact f.line_plain

/-- **A head is cut off the front of a stream in one way.** -/
theorem ResponseHead.bytes_append_inj {h h' : ResponseHead} {r r' : List UInt8}
    (he : h.bytes ++ r = h'.bytes ++ r') : h.bytes = h'.bytes ∧ r = r' := by
  obtain ⟨hl, hr⟩ := block_append_inj h.lines_plain h'.lines_plain he
  exact ⟨by rw [bytes, hl, bytes], hr⟩

/-! ### Values of fields -/

def isVisible (b : UInt8) : Bool := 0x21 ≤ b && b ≤ 0x7E

def isValueByte (b : UInt8) : Bool := isVisible b || b == 0x20 || b == 0x09 || 0x80 ≤ b

theorem isVisible_plain {b : UInt8} (h : isVisible b = true) : b ≠ 13 ∧ b ≠ 10 := by
  constructor <;> rintro rfl <;> exact absurd h (by decide)

theorem isValueByte_plain {b : UInt8} (h : isValueByte b = true) : b ≠ 13 ∧ b ≠ 10 := by
  constructor <;> rintro rfl <;> exact absurd h (by decide)

theorem not_blank {b : UInt8} (h : isVisible b = true) : ¬ (b == 0x20 || b == 0x09) = true := by
  intro hb
  rcases Bool.or_eq_true_iff.mp hb with hb | hb
  · obtain rfl := beq_iff_eq.mp hb
    exact absurd h (by decide)
  · obtain rfl := beq_iff_eq.mp hb
    exact absurd h (by decide)

/-- **A field says what is written after its colon and a blank**, if that neither
begins nor ends with another. -/
theorem exists_field {name value : List UInt8} (hne : name ≠ [])
    (htoken : ∀ b ∈ name, isTokenByte b = true) (hvalue : value ≠ [])
    (hclean : ∀ b ∈ value, isValueByte b = true) (hfirst : isVisible (value.head hvalue) = true)
    (hlast : isVisible (value.getLast hvalue) = true) :
    ∃ f : Field, f.name = name ∧ f.content = value ∧ f.line = name ++ 0x3A :: 0x20 :: value ∧
      ∀ b ∈ f.value, isValueByte b = true := by
  have hplain : Plain (0x20 :: value) := by
    intro b hb
    rcases List.mem_cons.mp hb with rfl | hb
    · decide
    · exact isValueByte_plain (hclean b hb)
  refine ⟨⟨name, 0x20 :: value, hne, htoken, hplain⟩, rfl, ?_, rfl, fun b hb => ?_⟩
  rotate_left
  · rcases List.mem_cons.mp hb with rfl | hb
    · decide
    · exact hclean b hb
  have hdrop : (0x20 :: value).dropWhile (fun b : UInt8 => b == 0x20 || b == 0x09) = value := by
    cases value with
    | nil => exact absurd rfl hvalue
    | cons b value =>
      rw [List.dropWhile_cons_of_pos rfl]
      exact List.dropWhile_cons_of_neg (not_blank hfirst)
  have hrdrop : value.rdropWhile (fun b : UInt8 => b == 0x20 || b == 0x09) = value :=
    List.rdropWhile_eq_self_iff.mpr fun _ => not_blank hlast
  rw [Field.content]
  simp only [hdrop, hrdrop]

/-! ### Heads of requests -/

/-- The head of an HTTP/1.x request. -/
@[ext] structure RequestHead where
  method : List UInt8
  target : List UInt8
  minor : UInt8
  fields : List Field
  method_ne : method ≠ []
  method_token : ∀ b ∈ method, isTokenByte b = true
  target_ne : target ≠ []
  target_visible : ∀ b ∈ target, isVisible b = true
  minor_digit : isDigit minor = true
  clean : ∀ f ∈ fields, ∀ b ∈ f.value, isValueByte b = true

def RequestHead.requestLine (h : RequestHead) : List UInt8 :=
  h.method ++ 0x20 :: (h.target ++ 0x20 :: (version ++ [h.minor]))

def RequestHead.lines (h : RequestHead) : List (List UInt8) :=
  h.requestLine :: h.fields.map Field.line

def RequestHead.bytes (h : RequestHead) : List UInt8 := block h.lines

theorem RequestHead.plain_requestLine (h : RequestHead) : Plain h.requestLine := by
  have hblank : Plain [0x20] := by decide
  have hminor : Plain [h.minor] := by
    intro b hb
    obtain rfl := List.mem_singleton.mp hb
    exact isDigit_plain h.minor_digit
  have hversion : Plain (version ++ [h.minor]) := Plain.append (by decide) hminor
  have htarget : Plain (h.target ++ ([0x20] ++ (version ++ [h.minor]))) :=
    Plain.append (fun b hb => isVisible_plain (h.target_visible b hb)) (hblank.append hversion)
  exact Plain.append (fun b hb => isTokenByte_plain (h.method_token b hb)) (hblank.append htarget)

theorem RequestHead.lines_plain (h : RequestHead) : ∀ l ∈ h.lines, Plain l ∧ l ≠ [] := by
  intro l hl
  rcases List.mem_cons.mp hl with rfl | hl
  · exact ⟨h.plain_requestLine, by simp [requestLine]⟩
  · obtain ⟨f, -, rfl⟩ := List.mem_map.mp hl
    exact f.line_plain

theorem RequestHead.requestLine_inj {h h' : RequestHead} (he : h.requestLine = h'.requestLine) :
    h.method = h'.method ∧ h.target = h'.target ∧ h.minor = h'.minor := by
  have hmethod : ∀ k : RequestHead, 0x20 ∉ k.method :=
    fun k hm => absurd (k.method_token _ hm) (by decide)
  have htarget : ∀ k : RequestHead, 0x20 ∉ k.target :=
    fun k hm => absurd (k.target_visible _ hm) (by decide)
  obtain ⟨hm, he⟩ := before_append_inj (hmethod h) (hmethod h') he
  obtain ⟨ht, he⟩ := before_append_inj (htarget h) (htarget h') he
  exact ⟨hm, ht, (List.cons.inj (List.append_cancel_left he)).1⟩

/-- **A head is read off the front of a stream in one way.** -/
theorem RequestHead.bytes_append_inj {h h' : RequestHead} {r r' : List UInt8}
    (he : h.bytes ++ r = h'.bytes ++ r') : h = h' ∧ r = r' := by
  obtain ⟨hl, hr⟩ := block_append_inj h.lines_plain h'.lines_plain he
  obtain ⟨hline, hfields⟩ := List.cons.inj hl
  obtain ⟨hm, ht, hv⟩ := requestLine_inj hline
  have hf : h.fields = h'.fields :=
    List.map_injective_iff.mpr (fun _ _ => Field.line_inj) hfields
  exact ⟨RequestHead.ext hm ht hv hf, hr⟩

theorem RequestHead.bytes_eq_append_iff {h h' : RequestHead} {r : List UInt8} :
    h.bytes = h'.bytes ++ r ↔ h' = h ∧ r = [] := by
  constructor
  · intro he
    obtain ⟨heq, hr⟩ := bytes_append_inj ((List.append_nil _).trans he)
    exact ⟨heq.symm, hr.symm⟩
  · rintro ⟨rfl, rfl⟩
    exact (List.append_nil _).symm

end HttpHead
