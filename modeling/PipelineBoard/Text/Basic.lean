-- Text: a run of code points, among which halves of surrogate pairs may stand
-- alone. Such a half is no character, and a text with one has no form in UTF-8.

namespace PipelineBoard

/-! ## Code points -/

/-- A code point of a text: a character, or half of a surrogate pair that stands
alone. -/
inductive Point where
  | scalar (c : Char)
  | lone (half : Fin 0x800)
deriving DecidableEq, Inhabited

instance : Coe Char Point := ⟨.scalar⟩

namespace Point

/-- The number of a code point. The halves of surrogate pairs begin at `0xd800`. -/
def toNat : Point → Nat
  | .scalar c => c.toNat
  | .lone half => 0xd800 + half

/-- The code point of a number. -/
def ofNat (n : Nat) : Point :=
  if h : 0xd800 ≤ n ∧ n < 0xe000 then .lone ⟨n - 0xd800, by omega⟩ else .scalar (Char.ofNat n)

/-- The code point is a character of a class. -/
def is (p : Char → Bool) : Point → Bool
  | .scalar c => p c
  | .lone _ => false

/-- The code point with another one for a character. -/
def map (f : Char → Char) : Point → Point
  | .scalar c => .scalar (f c)
  | .lone half => .lone half

/-- The character that a code point is. -/
def char? : Point → Option Char
  | .scalar c => some c
  | .lone _ => none

@[simp] theorem toNat_scalar (c : Char) : (scalar c).toNat = c.toNat := rfl

@[simp] theorem ofNat_toNat (p : Point) : ofNat p.toNat = p := by
  cases p with
  | scalar c =>
    have hvalid : c.toNat < 0xd800 ∨ 0xdfff < c.toNat ∧ c.toNat < 0x110000 := c.valid
    rw [toNat_scalar, ofNat, dif_neg (by omega), Char.ofNat_toNat]
  | lone half =>
    rw [ofNat, dif_pos (by simp [toNat]; omega)]
    simp [toNat]

@[simp] theorem is_scalar (p : Char → Bool) (c : Char) : (scalar c).is p = p c := rfl

@[simp] theorem is_lone (p : Char → Bool) (half : Fin 0x800) : (lone half).is p = false := rfl

end Point

/-! ## Texts -/

/-- A text by its code points. -/
structure Text where
  ofList ::
  toList : List Point
deriving DecidableEq, Inhabited

namespace Text

/-- A text of characters. -/
@[coe] def ofString (s : String) : Text := .ofList (s.toList.map .scalar)

instance : Coe String Text := ⟨ofString⟩

instance : Append Text := ⟨fun s t => .ofList (s.toList ++ t.toList)⟩

def isEmpty (t : Text) : Bool := t.toList.isEmpty

def length (t : Text) : Nat := t.toList.length

/-- The texts one after the other. -/
def join (texts : List Text) : Text := .ofList (texts.flatMap toList)

/-- The texts with another one between them. -/
def intercalate (between : Text) (texts : List Text) : Text :=
  .ofList (between.toList.intercalate (texts.map toList))

/-! ## UTF-8 -/

/-- Every code point of the text is a character. -/
def isEncodable (t : Text) : Bool := t.toList.all fun p => p.char?.isSome

/-- The text as a string, if it has no code points but characters. -/
def string? (t : Text) : Option String :=
  if t.isEncodable then some (String.ofList (t.toList.filterMap Point.char?)) else none

/-- The bytes of a text in UTF-8. -/
def utf8? (t : Text) : Option ByteArray := t.string?.map String.toUTF8

/-- The text that bytes write in UTF-8. -/
def ofUtf8? (bytes : ByteArray) : Option Text := (String.fromUTF8? bytes).map ofString

/-! ## First facts -/

@[simp] theorem toList_ofList (ps : List Point) : (ofList ps).toList = ps := rfl

@[simp] theorem ofList_toList (t : Text) : ofList t.toList = t := rfl

@[simp] theorem toList_ofString (s : String) : (ofString s).toList = s.toList.map .scalar := rfl

@[simp] theorem toList_append (s t : Text) : (s ++ t).toList = s.toList ++ t.toList := rfl

theorem ofList_append (ps qs : List Point) : ofList (ps ++ qs) = ofList ps ++ ofList qs := rfl

theorem toList_inj {s t : Text} : s.toList = t.toList ↔ s = t := by
  cases s
  cases t
  simp

@[ext] theorem ext_toList {s t : Text} (h : s.toList = t.toList) : s = t := toList_inj.mp h

@[simp] theorem ofString_inj {s t : String} : (s : Text) = t ↔ s = t := by
  rw [← toList_inj, toList_ofString, toList_ofString, List.map_inj_right (by simp), String.toList_inj]

@[simp] theorem toList_eq_nil_iff {t : Text} : t.toList = [] ↔ t = "" := by
  rw [← toList_inj]
  rfl

@[simp] theorem isEmpty_iff {t : Text} : t.isEmpty = true ↔ t = "" := by
  rw [isEmpty, List.isEmpty_iff, toList_eq_nil_iff]

@[simp] theorem ofList_eq_empty_iff {ps : List Point} : ofList ps = "" ↔ ps = [] := by
  rw [← toList_eq_nil_iff, toList_ofList]

@[simp] theorem empty_append (t : Text) : "" ++ t = t := rfl

@[simp] theorem append_empty (t : Text) : t ++ "" = t := by
  ext1
  simp

theorem append_assoc (s t u : Text) : s ++ t ++ u = s ++ (t ++ u) := by
  ext1
  simp

@[simp] theorem append_right_inj (s : Text) {t u : Text} : s ++ t = s ++ u ↔ t = u := by
  simp [← toList_inj]

@[simp] theorem append_eq_empty_iff {s t : Text} : s ++ t = "" ↔ s = "" ∧ t = "" := by
  simp [← toList_eq_nil_iff]

theorem ofString_append (s t : String) : ((s ++ t : String) : Text) = (s : Text) ++ (t : Text) := by
  ext1
  simp

@[simp] theorem length_toList (t : Text) : t.toList.length = t.length := rfl

@[simp] theorem join_nil : join [] = "" := rfl

@[simp] theorem join_cons (t : Text) (texts : List Text) : join (t :: texts) = t ++ join texts := rfl

@[simp] theorem toList_intercalate (between : Text) (texts : List Text) :
    (between.intercalate texts).toList = between.toList.intercalate (texts.map toList) := rfl

@[simp] theorem intercalate_singleton (between t : Text) : between.intercalate [t] = t := by
  ext1
  simp

theorem intercalate_cons_cons (between s t : Text) (texts : List Text) :
    between.intercalate (s :: t :: texts) = s ++ between ++ between.intercalate (t :: texts) := by
  ext1
  simp [List.intercalate_cons_cons, List.append_assoc]

end Text

end PipelineBoard
