import Mathlib.Data.List.Nodup
import Vigil.Lib.Json

/-!
# Encoding into JSON, and back

The encoders a serde derive produces, as functions `α → Json`, and what the
decoders of `Vigil.Lib.Json` make of their results. A `Codec` is an encoder with
a decoder and the law that ties them: of the values that `Fits` admits, the
decoder reads back what `wire` keeps. Most codecs keep everything; a double that
is not finite is written as `null`.

* `Codec.list`, `Codec.option`, `Codec.map`, `Codec.triple` carry a codec over to
  lists, options, string-keyed maps and triples.
* An object is read by name, so the order of its entries is free
  (`lookup_perm`), and so are entries under other names (`lookup_filter`).
  `Holds` says that an object has exactly some of the entries of a record in
  this sense, and `Holds.field` what one of its fields then decodes to.
-/

namespace Vigil.Lib

universe u

/-! ## Encoders -/

/-- What the wire keeps of a double: all that is not finite is written as `null`. -/
def F64.wire : F64 → F64
  | .fin q => .fin q
  | _ => .nan

namespace Json

/-- `serialize_u64`, and that of the narrower unsigned types. -/
def ofNat (n : Nat) : Json := .num (.posInt (UInt64.ofNat n))

/-- `serialize_i64`. -/
def ofInt (z : ℤ) : Json :=
  if 0 ≤ z then ofNat z.toNat else .num (.negInt (Int64.ofInt z))

/-- `serialize_f64`. -/
def ofF64 : F64 → Json
  | .fin q => .num (.float q)
  | _ => .null

def ofOption {α : Type u} (enc : α → Json) : Option α → Json
  | none => .null
  | some a => enc a

def ofList {α : Type u} (enc : α → Json) (l : List α) : Json := .arr (l.map enc)

/-- A string-keyed map, in the order it iterates. -/
def ofMap {α : Type u} (enc : α → Json) (m : List (String × α)) : Json :=
  .obj (m.map fun kv => (kv.1, enc kv.2))

def ofTriple {α : Type u} (enc : α → Json) (t : α × α × α) : Json :=
  .arr [enc t.1, enc t.2.1, enc t.2.2]

/-! ## Decoders of a reader -/

/-- A number, or the `null` that stands for a double that is not finite. -/
def asFloat : Json → Option F64
  | .num n => some (.fin n.asF64)
  | .null => some .nan
  | _ => none

def asMap {α : Type} (d : Json → Option α) : Json → Option (List (String × α))
  | .obj kvs => kvs.mapM fun kv => (d kv.2).map fun a => (kv.1, a)
  | _ => none

def asTriple {α : Type} (d : Json → Option α) : Json → Option (α × α × α)
  | .arr [x, y, z] => do
    let x ← d x
    let y ← d y
    let z ← d z
    some (x, y, z)
  | _ => none

theorem asUint_ofNat {bits n : Nat} (hb : bits ≤ 64) (hn : n < 2 ^ bits) :
    asUint bits (ofNat n) = some n := by
  have h64 : n < 2 ^ 64 := lt_of_lt_of_le hn (Nat.pow_le_pow_right (by norm_num) hb)
  have hto : (UInt64.ofNat n).toNat = n := UInt64.toNat_ofNat_of_lt' h64
  simp [asUint, ofNat, hto, hn]

theorem asI64_ofInt {z : ℤ} (hlo : -2 ^ 63 ≤ z) (hhi : z < 2 ^ 63) : asI64 (ofInt z) = some z := by
  unfold ofInt
  split
  · next h0 =>
    have hlt : z.toNat < 2 ^ 63 := by omega
    have hto : (UInt64.ofNat z.toNat).toNat = z.toNat :=
      UInt64.toNat_ofNat_of_lt' (lt_trans hlt (by norm_num))
    simp only [ofNat, asI64, hto, if_pos hlt]
    rw [Int.toNat_of_nonneg h0]
  · simp only [asI64, Int64.toInt_ofInt_of_le hlo hhi]

theorem asF64_float (q : ℚ) : asF64 (.num (.float q)) = some q := rfl

theorem asFloat_ofF64 (x : F64) : asFloat (ofF64 x) = some x.wire := by cases x <;> rfl

theorem ofF64_wire (x : F64) : ofF64 x.wire = ofF64 x := by cases x <;> rfl

end Json

/-! ## Codecs -/

/-- An encoder, a decoder, and what becomes of a value on the way. -/
structure Codec (α : Type) where
  enc : α → Json
  dec : Json → Option α
  Fits : α → Prop
  wire : α → α
  dec_enc : ∀ a, Fits a → dec (enc a) = some (wire a)
  enc_wire : ∀ a, enc (wire a) = enc a

namespace Codec

/-- **An encoding determines what the wire keeps, and nothing else.** -/
theorem enc_eq_iff {α : Type} (c : Codec α) {a b : α} (ha : c.Fits a) (hb : c.Fits b) :
    c.enc a = c.enc b ↔ c.wire a = c.wire b := by
  constructor
  · intro h
    have hdec := (c.dec_enc a ha).symm.trans ((congrArg c.dec h).trans (c.dec_enc b hb))
    exact Option.some.inj hdec
  · intro h
    rw [← c.enc_wire a, ← c.enc_wire b, h]

def str : Codec String := ⟨.str, Json.asStr, fun _ => True, id, fun _ _ => rfl, fun _ => rfl⟩

def bool : Codec Bool := ⟨.bool, Json.asBool, fun _ => True, id, fun _ _ => rfl, fun _ => rfl⟩

/-- Unsigned integers of at most `bits` bits. -/
def uint (bits : Nat) (hb : bits ≤ 64) : Codec Nat :=
  ⟨Json.ofNat, Json.asUint bits, (· < 2 ^ bits), id, fun _ hn => Json.asUint_ofNat hb hn,
    fun _ => rfl⟩

/-- Signed integers of 64 bits. -/
def int64 : Codec ℤ :=
  ⟨Json.ofInt, Json.asI64, fun z => -2 ^ 63 ≤ z ∧ z < 2 ^ 63, id,
    fun _ hz => Json.asI64_ofInt hz.1 hz.2, fun _ => rfl⟩

def float : Codec F64 :=
  ⟨Json.ofF64, Json.asFloat, fun _ => True, F64.wire, fun x _ => Json.asFloat_ofF64 x,
    Json.ofF64_wire⟩

theorem mapM_dec {α β : Type} {d : β → Option α} {enc : α → β} {wire : α → α} {l : List α}
    (h : ∀ a ∈ l, d (enc a) = some (wire a)) : (l.map enc).mapM d = some (l.map wire) := by
  induction l with
  | nil => rfl
  | cons a l ih =>
    have htail := ih fun b hb => h b (List.mem_cons_of_mem _ hb)
    rw [List.map_cons, List.mapM_cons, h a List.mem_cons_self, htail]
    rfl

variable {α : Type} (c : Codec α)

def list : Codec (List α) where
  enc := Json.ofList c.enc
  dec := Json.asList c.dec
  Fits l := ∀ a ∈ l, c.Fits a
  wire := List.map c.wire
  dec_enc _ hl := mapM_dec fun a ha => c.dec_enc a (hl a ha)
  enc_wire l := by simp [Json.ofList, Function.comp_def, c.enc_wire]

/-- Options of values that are never written as `null`. -/
def option (hnull : ∀ a, c.enc a ≠ .null) : Codec (Option α) where
  enc := Json.ofOption c.enc
  dec := Json.asOption c.dec
  Fits o := ∀ a ∈ o, c.Fits a
  wire := Option.map c.wire
  dec_enc o ho := by
    cases o with
    | none => rfl
    | some a =>
      have hdec : Json.asOption c.dec (c.enc a) = (c.dec (c.enc a)).map some := by
        unfold Json.asOption
        split
        · next h => exact absurd h (hnull a)
        · rfl
      show Json.asOption c.dec (c.enc a) = _
      rw [hdec, c.dec_enc a (ho a rfl)]
      rfl
  enc_wire o := by
    cases o with
    | none => rfl
    | some a => exact c.enc_wire a

def map : Codec (List (String × α)) where
  enc := Json.ofMap c.enc
  dec := Json.asMap c.dec
  Fits m := ∀ kv ∈ m, c.Fits kv.2
  wire := List.map fun kv => (kv.1, c.wire kv.2)
  dec_enc m hm := by
    refine mapM_dec fun kv hkv => ?_
    rw [c.dec_enc kv.2 (hm kv hkv)]
    rfl
  enc_wire m := by simp [Json.ofMap, Function.comp_def, c.enc_wire]

def triple : Codec (α × α × α) where
  enc := Json.ofTriple c.enc
  dec := Json.asTriple c.dec
  Fits t := c.Fits t.1 ∧ c.Fits t.2.1 ∧ c.Fits t.2.2
  wire t := (c.wire t.1, c.wire t.2.1, c.wire t.2.2)
  dec_enc t ht := by
    simp only [Json.ofTriple, Json.asTriple, c.dec_enc _ ht.1, c.dec_enc _ ht.2.1,
      c.dec_enc _ ht.2.2]
    rfl
  enc_wire t := by simp [Json.ofTriple, c.enc_wire]

end Codec

/-! ## Objects -/

namespace Json

/-- The lookup of a name does not depend on the order of the entries. -/
theorem lookup_perm {kvs kvs' : List (String × Json)} (h : kvs.Perm kvs') (name : String) :
    lookup kvs name = lookup kvs' name := by
  have hf := h.filter (·.1 == name)
  unfold lookup
  generalize kvs.filter (·.1 == name) = l at hf ⊢
  generalize kvs'.filter (·.1 == name) = l' at hf ⊢
  match l, l', hf with
  | [], l', hf => rw [hf.symm.eq_nil]
  | [kv], l', hf => rw [List.perm_singleton.mp hf.symm]
  | a :: b :: l, l', hf =>
    have hlen := hf.length_eq
    match l', hlen with
    | _ :: _ :: _, _ => rfl

/-- Nor on entries under other names. -/
theorem lookup_filter {p : String → Bool} {name : String} (hp : p name = true)
    (kvs : List (String × Json)) : lookup (kvs.filter fun kv => p kv.1) name = lookup kvs name := by
  have hf : (kvs.filter fun kv => p kv.1).filter (·.1 == name) = kvs.filter (·.1 == name) := by
    rw [List.filter_filter]
    refine List.filter_congr fun kv _ => ?_
    by_cases hk : kv.1 = name
    · simp [hk, hp]
    · simp [hk]
  rw [lookup, lookup, hf]

theorem lookup_of_not_mem {kvs : List (String × Json)} {name : String}
    (h : name ∉ kvs.map Prod.fst) : lookup kvs name = some none := by
  have hf : kvs.filter (·.1 == name) = [] := by
    refine List.filter_eq_nil_iff.mpr fun kv hkv he => h ?_
    exact List.mem_map.mpr ⟨kv, hkv, by simpa using he⟩
  rw [lookup, hf]

theorem lookup_of_nodup {kvs : List (String × Json)} {name : String} {j : Json}
    (hn : (kvs.map Prod.fst).Nodup) (hm : (name, j) ∈ kvs) : lookup kvs name = some (some j) := by
  have hf : kvs.filter (·.1 == name) = [(name, j)] := by
    induction kvs with
    | nil => cases hm
    | cons kv kvs ih =>
      obtain ⟨hnot, hn⟩ := List.nodup_cons.mp hn
      rcases List.mem_cons.mp hm with rfl | hm
      · have hrest : kvs.filter (·.1 == name) = [] := by
          refine List.filter_eq_nil_iff.mpr fun kv hkv he => hnot ?_
          exact List.mem_map.mpr ⟨kv, hkv, by simpa using he⟩
        rw [List.filter_cons_of_pos (by simp), hrest]
      · have hne : kv.1 ≠ name := by
          rintro rfl
          exact hnot (List.mem_map.mpr ⟨_, hm, rfl⟩)
        rw [List.filter_cons_of_neg (by simpa using hne), ih hn hm]
  rw [lookup, hf]

theorem lookup_eq_none_iff {kvs : List (String × Json)} {name : String} :
    lookup kvs name = none ↔ 2 ≤ (kvs.map Prod.fst).count name := by
  have hlen : (kvs.map Prod.fst).count name = (kvs.filter (·.1 == name)).length := by
    rw [← List.countP_eq_length_filter, List.count, List.countP_map]
    rfl
  rw [hlen, lookup]
  generalize kvs.filter (·.1 == name) = l
  match l with
  | [] | [_] | _ :: _ :: _ => simp

/-- `kvs` has, under the names `known`, exactly the entries of `entries` that `keep` keeps; their
order is free, and so are its entries under other names. -/
def Holds (known : List String) (entries : List (String × Json)) (keep : String → Bool)
    (kvs : List (String × Json)) : Prop :=
  (kvs.filter fun kv => known.contains kv.1).Perm (entries.filter fun kv => keep kv.1)

variable {known : List String} {entries kvs : List (String × Json)} {keep : String → Bool}

/-- A field of an object is that of the record where it is kept, and missing elsewhere. -/
theorem Holds.field {α : Type} (h : Holds known entries keep kvs)
    (hn : (entries.map Prod.fst).Nodup) {name : String} {j : Json} (hk : name ∈ known)
    (hm : (name, j) ∈ entries) (d : Json → Option α) (dflt : Option α) :
    Json.field kvs name d dflt = if keep name then d j else dflt := by
  have hl : lookup kvs name = lookup (entries.filter fun kv => keep kv.1) name :=
    (lookup_filter (p := known.contains) (List.contains_iff_mem.mpr hk) kvs).symm.trans
      (lookup_perm h name)
  unfold Json.field
  rw [hl]
  cases hkeep : keep name with
  | true =>
    rw [lookup_filter hkeep, lookup_of_nodup hn hm]
    rfl
  | false =>
    have hnot : name ∉ (entries.filter fun kv => keep kv.1).map Prod.fst := by
      intro hmem
      obtain ⟨kv, hkv, rfl⟩ := List.mem_map.mp hmem
      rw [(List.mem_filter.mp hkv).2] at hkeep
      cases hkeep
    rw [lookup_of_not_mem hnot]
    rfl

/-- A field of the object a record is written as. -/
theorem field_of_mem {α : Type} (hn : (entries.map Prod.fst).Nodup) {name : String} {j : Json}
    (hm : (name, j) ∈ entries) (d : Json → Option α) (dflt : Option α) :
    Json.field entries name d dflt = d j := by
  unfold Json.field
  rw [lookup_of_nodup hn hm]
  rfl

end Json

/-! ## Records -/

/-- The fields of a struct `σ` so far, and the function that takes the rest to a struct. -/
structure Record (σ κ : Type) where
  names : List String
  entries : σ → List (String × Json)
  dec : List (String × Json) → Option κ
  Fits : σ → Prop
  wire : σ → κ
  fst_entries : ∀ s, (entries s).map Prod.fst = names
  dec_entries : ∀ s kvs, Fits s → (kvs.map Prod.fst).Nodup → entries s ⊆ kvs →
    dec kvs = some (wire s)

namespace Record

variable {σ κ α : Type}

def of (mk : κ) : Record σ κ where
  names := []
  entries _ := []
  dec _ := some mk
  Fits _ := True
  wire _ := mk
  fst_entries _ := rfl
  dec_entries _ _ _ _ _ := rfl

/-- The next field, which a reader requires. -/
def field (r : Record σ (α → κ)) (name : String) (c : Codec α) (get : σ → α) : Record σ κ where
  names := r.names ++ [name]
  entries s := r.entries s ++ [(name, c.enc (get s))]
  dec kvs := (r.dec kvs).bind fun f => (Json.field kvs name c.dec none).map f
  Fits s := r.Fits s ∧ c.Fits (get s)
  wire s := r.wire s (c.wire (get s))
  fst_entries s := by rw [List.map_append, r.fst_entries]; rfl
  dec_entries s kvs hs hn hsub := by
    have hleft : r.entries s ⊆ kvs := fun kv hkv => hsub (List.mem_append_left _ hkv)
    have hmem : (name, c.enc (get s)) ∈ kvs :=
      hsub (List.mem_append_right _ (List.mem_singleton_self _))
    rw [r.dec_entries s kvs hs.1 hn hleft, Json.field_of_mem hn hmem, c.dec_enc _ hs.2]
    rfl

/-- The codec of a struct whose fields have distinct names. -/
def codec (r : Record σ σ) (hn : r.names.Nodup) (hw : ∀ s, r.entries (r.wire s) = r.entries s) :
    Codec σ where
  enc s := .obj (r.entries s)
  dec
    | .obj kvs => r.dec kvs
    | _ => none
  Fits := r.Fits
  wire := r.wire
  dec_enc s hs := r.dec_entries s _ hs (r.fst_entries s ▸ hn) (List.Subset.refl _)
  enc_wire s := congrArg Json.obj (hw s)

end Record

end Vigil.Lib
