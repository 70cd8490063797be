/-
Typed codecs over JSON documents: what a strict schema writes for a value it
reads back as that value.

A `Doc` is a document as a program holds it, its objects in the order of their
entries and its fractions of any type. A `Codec` is a pair of functions with
their law. `Fields` is the codec of an object's entries, put together field by
field; `Codec.record` refuses the fields it does not name. `Variants` is a
union told apart by a tag under one key. A `TextFormat` turns documents into
texts and back; `Codec.dumps` and `Codec.loads` are a codec over one.
-/
import Mathlib.Data.List.Nodup
import Nexus.Lib.Json

namespace JsonCodec

inductive Doc (F : Type)
  | null
  | bool (b : Bool)
  | int (n : Int)
  | float (x : F)
  | str (s : List Char)
  | arr (items : List (Doc F))
  | obj (entries : List (List Char × Doc F))

abbrev Object (F : Type) := List (List Char × Doc F)

structure Codec (F α : Type) where
  encode : α → Doc F
  decode : Doc F → Option α
  decode_encode : ∀ a, decode (encode a) = .some a

/-- The entries of an object, by field: `read` looks them up. -/
structure Fields (F α : Type) where
  names : List (List Char)
  write : α → Object F
  read : Object F → Option α
  names_write : ∀ a, (write a).map Prod.fst = names
  read_write : ∀ a entries, (∀ e ∈ write a, entries.lookup e.1 = .some e.2) → read entries = .some a

/-- A union told apart by the tag under `key`. -/
structure Variants (F : Type) (key : List Char) (α : Type) where
  tags : List (List Char)
  tagOf : α → List Char
  write : α → Object F
  read : List Char → Object F → Option α
  tagOf_mem : ∀ a, tagOf a ∈ tags
  read_write : ∀ a, read (tagOf a) ((key, .str (tagOf a)) :: write a) = .some a

variable {F α β : Type}

theorem lookup_of_nodup {entries : Object F} (h : (entries.map Prod.fst).Nodup) {e : List Char × Doc F}
    (he : e ∈ entries) : entries.lookup e.1 = .some e.2 := by
  induction entries with
  | nil => cases he
  | cons x entries ih =>
    obtain ⟨k, v⟩ := x
    rw [List.map_cons, List.nodup_cons] at h
    rw [List.lookup_cons]
    rcases List.mem_cons.1 he with rfl | hmem
    · simp
    · have hne : (e.1 == k) = false := by
        rw [beq_eq_false_iff_ne]
        intro heq
        rw [← heq] at h
        exact h.1 (List.mem_map.2 ⟨e, hmem, rfl⟩)
      rw [hne]
      exact ih h.2 hmem

/-! ## Fields -/

namespace Fields

def empty : Fields F Unit where
  names := []
  write _ := []
  read _ := .some ()
  names_write _ := rfl
  read_write _ _ _ := rfl

def field (name : List Char) (c : Codec F α) : Fields F α where
  names := [name]
  write a := [(name, c.encode a)]
  read entries := (entries.lookup name).bind c.decode
  names_write _ := rfl
  read_write a entries h := by
    rw [h (name, c.encode a) (by simp), Option.bind_some, c.decode_encode]

/-- A field that may be left out. -/
def fieldOr (name : List Char) (c : Codec F α) (default : α) : Fields F α where
  names := [name]
  write a := [(name, c.encode a)]
  read entries := match entries.lookup name with
    | .none => .some default
    | .some d => c.decode d
  names_write _ := rfl
  read_write a entries h := by
    rw [h (name, c.encode a) (by simp)]
    exact c.decode_encode a

def and (f : Fields F α) (g : Fields F β) : Fields F (α × β) where
  names := f.names ++ g.names
  write a := f.write a.1 ++ g.write a.2
  read entries := (f.read entries).bind fun a => (g.read entries).map fun b => (a, b)
  names_write a := by rw [List.map_append, f.names_write, g.names_write]
  read_write a entries h := by
    rw [f.read_write a.1 entries fun e he => h e (List.mem_append_left _ he),
      g.read_write a.2 entries fun e he => h e (List.mem_append_right _ he)]
    rfl

def map (f : Fields F α) (build : α → β) (parts : β → α) (h : ∀ b, build (parts b) = b) : Fields F β where
  names := f.names
  write b := f.write (parts b)
  read entries := (f.read entries).map build
  names_write b := f.names_write (parts b)
  read_write b entries hb := by rw [f.read_write (parts b) entries hb, Option.map_some, h]

/-- Reads entries that are all named, or the tag. -/
def readOnly (f : Fields F α) (known : List (List Char)) (entries : Object F) : Option α :=
  if entries.all fun e => (known ++ f.names).contains e.1 then f.read entries else .none

theorem readOnly_eq (f : Fields F α) {known : List (List Char)} (tag : Object F) (htag : tag.map Prod.fst = known)
    (h : (known ++ f.names).Nodup) (a : α) : f.readOnly known (tag ++ f.write a) = .some a := by
  have hkeys : (tag ++ f.write a).map Prod.fst = known ++ f.names := by
    rw [List.map_append, htag, f.names_write]
  have hall : (tag ++ f.write a).all (fun e => (known ++ f.names).contains e.1) = true := by
    rw [List.all_eq_true]
    intro e he
    rw [List.contains_iff_mem, ← hkeys]
    exact List.mem_map_of_mem he
  rw [readOnly, if_pos hall]
  refine f.read_write a _ fun e he => lookup_of_nodup (by rw [hkeys]; exact h) ?_
  exact List.mem_append_right _ he

end Fields

/-! ## Unions -/

namespace Variants

variable {key : List Char}

def one (tag : List Char) (f : Fields F α) (h : (key :: f.names).Nodup) : Variants F key α where
  tags := [tag]
  tagOf _ := tag
  write := f.write
  read t entries := if t = tag then f.readOnly [key] entries else .none
  tagOf_mem _ := List.mem_singleton_self tag
  read_write a := by
    rw [if_pos rfl]
    exact f.readOnly_eq [(key, .str tag)] rfl h a

def or (v : Variants F key α) (w : Variants F key β) (h : ∀ t ∈ w.tags, t ∉ v.tags) : Variants F key (α ⊕ β) where
  tags := v.tags ++ w.tags
  tagOf := Sum.elim v.tagOf w.tagOf
  write := Sum.elim v.write w.write
  read t entries := if t ∈ v.tags then (v.read t entries).map .inl else (w.read t entries).map .inr
  tagOf_mem
    | .inl a => List.mem_append_left _ (v.tagOf_mem a)
    | .inr b => List.mem_append_right _ (w.tagOf_mem b)
  read_write
    | .inl a => by
      refine (if_pos (v.tagOf_mem a)).trans ?_
      simp only [Sum.elim_inl]
      rw [v.read_write, Option.map_some]
    | .inr b => by
      refine (if_neg (h _ (w.tagOf_mem b))).trans ?_
      simp only [Sum.elim_inr]
      rw [w.read_write, Option.map_some]

def map (v : Variants F key α) (build : α → β) (parts : β → α) (h : ∀ b, build (parts b) = b) : Variants F key β where
  tags := v.tags
  tagOf b := v.tagOf (parts b)
  write b := v.write (parts b)
  read t entries := (v.read t entries).map build
  tagOf_mem b := v.tagOf_mem (parts b)
  read_write b := by rw [v.read_write, Option.map_some, h]

end Variants

/-! ## Codecs -/

namespace Codec

def doc : Codec F (Doc F) := ⟨id, .some, fun _ => rfl⟩

def bool : Codec F Bool := ⟨.bool, fun | .bool b => .some b | _ => .none, fun _ => rfl⟩

def int : Codec F Int := ⟨.int, fun | .int n => .some n | _ => .none, fun _ => rfl⟩

def str : Codec F (List Char) := ⟨.str, fun | .str s => .some s | _ => .none, fun _ => rfl⟩

def object : Codec F (Object F) := ⟨.obj, fun | .obj entries => .some entries | _ => .none, fun _ => rfl⟩

/-- Values with a spelling of their own. -/
def spelled (print : α → List Char) (parse : List Char → Option α) (h : ∀ a, parse (print a) = .some a) : Codec F α where
  encode a := .str (print a)
  decode
    | .str s => parse s
    | _ => .none
  decode_encode := h

def list (c : Codec F α) : Codec F (List α) where
  encode l := .arr (l.map c.encode)
  decode
    | .arr items => items.mapM c.decode
    | _ => .none
  decode_encode l := by
    simp only
    induction l with
    | nil => rfl
    | cons a l ih => rw [List.map_cons, List.mapM_cons, c.decode_encode, ih]; rfl

def subtype (c : Codec F α) (p : α → Prop) [DecidablePred p] : Codec F {a // p a} where
  encode a := c.encode a.1
  decode d := (c.decode d).bind fun a => if h : p a then .some ⟨a, h⟩ else .none
  decode_encode a := by rw [c.decode_encode, Option.bind_some, dif_pos a.2]

def map (c : Codec F α) (build : α → β) (parts : β → α) (h : ∀ b, build (parts b) = b) : Codec F β where
  encode b := c.encode (parts b)
  decode d := (c.decode d).map build
  decode_encode b := by rw [c.decode_encode, Option.map_some, h]

/-- Natural numbers, as integers that are not negative. -/
def nat : Codec F Nat where
  encode n := .int n
  decode
    | .int (.ofNat n) => .some n
    | _ => .none
  decode_encode _ := rfl

/-- A value or `null`. -/
def nullable (c : Codec F α) (h : ∀ a, c.encode a ≠ .null) : Codec F (Option α) where
  encode
    | .none => .null
    | .some a => c.encode a
  decode
    | .null => .some .none
    | d => (c.decode d).map .some
  decode_encode
    | .none => rfl
    | .some a => by
      simp only
      split
      · rename_i heq
        exact absurd heq (h a)
      · rw [c.decode_encode, Option.map_some]

/-- An object of exactly these fields. -/
def record (f : Fields F α) (h : f.names.Nodup) : Codec F α where
  encode a := .obj (f.write a)
  decode
    | .obj entries => f.readOnly [] entries
    | _ => .none
  decode_encode a := f.readOnly_eq [] rfl h a

/-- An object whose fields depend on its tag. -/
def tagged (key : List Char) (v : Variants F key α) : Codec F α where
  encode a := .obj ((key, .str (v.tagOf a)) :: v.write a)
  decode
    | .obj entries => match entries.lookup key with
      | .some (.str tag) => v.read tag entries
      | _ => .none
    | _ => .none
  decode_encode a := by
    simp only [List.lookup_cons, beq_self_eq_true]
    exact v.read_write a

end Codec

/-! ## Texts -/

/-- A way to write documents as texts. -/
structure TextFormat (F : Type) where
  dumps : Doc F → List Char
  loads : List Char → Option (Doc F)
  loads_dumps : ∀ d, loads (dumps d) = .some d

def Codec.dumps (c : Codec F α) (text : TextFormat F) (a : α) : List Char := text.dumps (c.encode a)

def Codec.loads (c : Codec F α) (text : TextFormat F) (s : List Char) : Option α := (text.loads s).bind c.decode

@[simp] theorem Codec.loads_dumps (c : Codec F α) (text : TextFormat F) (a : α) :
    c.loads text (c.dumps text a) = .some a := by
  rw [Codec.loads, Codec.dumps, text.loads_dumps, Option.bind_some, c.decode_encode]

/-! Documents without fractions have a format whose law is proved: their
arrays and objects as arrays told apart by a first item, in the texts of
`Json`. -/

mutual

def Doc.toValue : Doc Empty → Json.Value
  | .null => .null
  | .bool b => .bool b
  | .int n => .int n
  | .str s => .str s
  | .arr items => .arr (.bool false :: itemsToValues items)
  | .obj entries => .arr (.bool true :: entriesToValues entries)

def itemsToValues : List (Doc Empty) → List Json.Value
  | [] => []
  | d :: items => d.toValue :: itemsToValues items

def entriesToValues : List (List Char × Doc Empty) → List Json.Value
  | [] => []
  | (key, d) :: entries => .arr [.str key, d.toValue] :: entriesToValues entries

end

mutual

def Doc.ofValue : Json.Value → Option (Doc Empty)
  | .null => .some .null
  | .bool b => .some (.bool b)
  | .int n => .some (.int n)
  | .str s => .some (.str s)
  | .arr (.bool false :: items) => (itemsOfValues items).map .arr
  | .arr (.bool true :: entries) => (entriesOfValues entries).map .obj
  | _ => .none

def itemsOfValues : List Json.Value → Option (List (Doc Empty))
  | [] => .some []
  | v :: items => (Doc.ofValue v).bind fun d => (itemsOfValues items).map (d :: ·)

def entriesOfValues : List Json.Value → Option (List (List Char × Doc Empty))
  | [] => .some []
  | .arr [.str key, v] :: entries =>
    (Doc.ofValue v).bind fun d => (entriesOfValues entries).map ((key, d) :: ·)
  | _ => .none

end

mutual

theorem Doc.ofValue_toValue : ∀ d : Doc Empty, Doc.ofValue d.toValue = .some d
  | .null | .bool _ | .int _ | .str _ => by rw [Doc.toValue, Doc.ofValue]
  | .arr items => by rw [Doc.toValue, Doc.ofValue, itemsOfValues_toValues items, Option.map_some]
  | .obj entries => by rw [Doc.toValue, Doc.ofValue, entriesOfValues_toValues entries, Option.map_some]

theorem itemsOfValues_toValues : ∀ items : List (Doc Empty), itemsOfValues (itemsToValues items) = .some items
  | [] => by rw [itemsToValues, itemsOfValues]
  | d :: items => by
    rw [itemsToValues, itemsOfValues, Doc.ofValue_toValue d, itemsOfValues_toValues items]
    rfl

theorem entriesOfValues_toValues : ∀ entries : List (List Char × Doc Empty),
    entriesOfValues (entriesToValues entries) = .some entries
  | [] => by rw [entriesToValues, entriesOfValues]
  | (key, d) :: entries => by
    rw [entriesToValues, entriesOfValues, Doc.ofValue_toValue d, entriesOfValues_toValues entries]
    rfl

end

mutual

theorem Doc.canonical_toValue : ∀ d : Doc Empty, d.toValue.Canonical
  | .null => by rw [Doc.toValue]; exact .null
  | .bool b => by rw [Doc.toValue]; exact .bool b
  | .int n => by rw [Doc.toValue]; exact .int n
  | .str s => by rw [Doc.toValue]; exact .str s
  | .arr items => by
    rw [Doc.toValue]
    refine .arr fun v hv => ?_
    rcases List.mem_cons.1 hv with rfl | hv
    · exact .bool false
    · exact canonical_itemsToValues items v hv
  | .obj entries => by
    rw [Doc.toValue]
    refine .arr fun v hv => ?_
    rcases List.mem_cons.1 hv with rfl | hv
    · exact .bool true
    · exact canonical_entriesToValues entries v hv

theorem canonical_itemsToValues : ∀ (items : List (Doc Empty)), ∀ v ∈ itemsToValues items, v.Canonical
  | [], v, hv => by rw [itemsToValues] at hv; cases hv
  | d :: items, v, hv => by
    rw [itemsToValues] at hv
    rcases List.mem_cons.1 hv with rfl | hv
    · exact Doc.canonical_toValue d
    · exact canonical_itemsToValues items v hv

theorem canonical_entriesToValues : ∀ (entries : List (List Char × Doc Empty)), ∀ v ∈ entriesToValues entries, v.Canonical
  | [], v, hv => by rw [entriesToValues] at hv; cases hv
  | (key, d) :: entries, v, hv => by
    rw [entriesToValues] at hv
    rcases List.mem_cons.1 hv with rfl | hv
    · refine .arr fun w hw => ?_
      rcases List.mem_cons.1 hw with rfl | hw
      · exact .str key
      · rw [List.mem_singleton.1 hw]
        exact Doc.canonical_toValue d
    · exact canonical_entriesToValues entries v hv

end

def plainText : TextFormat Empty where
  dumps d := Json.dumps d.toValue
  loads s := (Json.loads s).bind Doc.ofValue
  loads_dumps d := by
    rw [Json.loads_dumps d.canonical_toValue, Option.bind_some, Doc.ofValue_toValue]

end JsonCodec
