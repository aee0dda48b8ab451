import ControlCenter.Utf8

/-! JSON texts as bytes: the text of a value has no lone surrogate, so its bytes in UTF-8 are
read back as the value, however they were cut. -/
namespace ControlCenter.JsonBytes
open JsonText
open Utf8

theorem formedCons {c : CodeUnit} {rest : Text} (whole : surrogate c.val = false)
    (formed : wellFormed rest = true) : wellFormed (c::rest) = true := by
  cases rest with
  | nil => simp [wellFormed,whole]
  | cons d rest =>
    rw [wellFormed]
    split
    next pair =>
      simp only [high,surrogate,Bool.and_eq_true,Bool.and_eq_false_iff,decide_eq_true_eq,
        decide_eq_false_iff_not] at pair whole
      omega
    · simp [whole,formed]

theorem formedAppend {s t : Text} (first : wellFormed s = true) (second : wellFormed t = true) :
    wellFormed (s ++ t) = true := by
  fun_induction wellFormed s with
  | case1 => exact second
  | case2 a =>
    simp only [Bool.not_eq_true'] at first
    exact formedCons first second
  | case3 a b rest pair ih =>
    rw [List.cons_append,List.cons_append,wellFormed,if_pos pair]
    exact ih first
  | case4 a b rest pair ih =>
    simp only [Bool.and_eq_true,Bool.not_eq_true'] at first
    exact formedCons first.1 (ih first.2)

theorem formedSmall {s : Text} (small : ∀ c ∈ s, c.val < 0xd800) : wellFormed s = true := by
  induction s with
  | nil => rfl
  | cons c rest ih =>
    have own := small c List.mem_cons_self
    refine formedCons ?_ (ih fun d inside => small d (List.mem_cons_of_mem _ inside))
    simp only [surrogate,Bool.and_eq_false_iff,decide_eq_false_iff_not]
    omega

theorem hexSmall : ∀ n : Fin 16, (hexDigit n.val).val < 0xd800 := by decide

theorem hex4Formed (c : CodeUnit) : wellFormed (hex4 c) = true := by
  have bound := c.isLt
  refine formedSmall fun d inside => ?_
  simp only [hex4,List.mem_cons,List.not_mem_nil,or_false] at inside
  rcases inside with same | same | same | same
  · exact same ▸ hexSmall ⟨c.val / 4096,by omega⟩
  · exact same ▸ hexSmall ⟨c.val / 256 % 16,by omega⟩
  · exact same ▸ hexSmall ⟨c.val / 16 % 16,by omega⟩
  · exact same ▸ hexSmall ⟨c.val % 16,by omega⟩

theorem escapeUnitFormed (c : CodeUnit) : wellFormed (escapeUnit c) = true := by
  unfold escapeUnit
  split
  · rfl
  split
  · rfl
  split
  · rfl
  split
  · rfl
  split
  · rfl
  split
  · rfl
  split
  · rfl
  split
  · exact formedAppend (by rfl) (hex4Formed c)
  next plain =>
    simp only [high,low,Bool.or_eq_true,Bool.and_eq_true,decide_eq_true_eq] at plain
    have whole : surrogate c.val = false := by
      simp only [surrogate,Bool.and_eq_false_iff,decide_eq_false_iff_not]
      omega
    simp [wellFormed,whole]

theorem escapeFormed (s : Text) : wellFormed (escape s) = true := by
  fun_induction escape s with
  | case1 => rfl
  | case2 a => exact escapeUnitFormed a
  | case3 a b rest pair ih =>
    rw [wellFormed,if_pos pair]
    exact ih
  | case4 a b rest pair ih => exact formedAppend (escapeUnitFormed a) ih

theorem quotedFormed (s : Text) : wellFormed (quoted s) = true :=
  formedCons rfl (formedAppend (escapeFormed s) rfl)

theorem asciiFormed {name : String} (plain : name.toList.all fun c => c.toNat < 0x80) :
    wellFormed (ascii name) = true := by
  refine formedSmall fun c inside => ?_
  obtain ⟨d,there,rfl⟩ := List.mem_map.mp inside
  have small : d.toNat < 0x80 := of_decide_eq_true (List.all_eq_true.mp plain d there)
  exact Nat.lt_of_le_of_lt (Nat.mod_le _ _) (Nat.lt_trans small (by decide))

theorem joinFormed {parts : List Text} (formed : ∀ s ∈ parts, wellFormed s = true) :
    wellFormed (join parts) = true := by
  fun_induction join parts with
  | case1 => rfl
  | case2 part => exact formed part List.mem_cons_self
  | case3 part next rest ih =>
    exact formedAppend (formed part List.mem_cons_self)
      (formedCons rfl (ih fun s inside => formed s (List.mem_cons_of_mem _ inside)))

section
variable {N : Type} {f : NumberFormat N}

theorem numberFormed (lawful : f.Lawful) (n : N) : wellFormed (f.text n) = true := by
  refine formedSmall fun c inside => ?_
  have unit := numberUnits (lawful.number n) c inside
  simp only [numberUnit,isDigit,Bool.or_eq_true,Bool.and_eq_true,decide_eq_true_eq] at unit
  have bounded : c.val ≤ 101 := by
    rcases unit with ((((digit | plus) | minus) | point) | upper) | lower
    · omega
    · exact plus ▸ by decide
    · exact minus ▸ by decide
    · exact point ▸ by decide
    · exact upper ▸ by decide
    · exact lower ▸ by decide
  omega

mutual
theorem writeFormed (lawful : f.Lawful) (v : Value N) : wellFormed (write f v) = true := by
  cases v with
  | undefined | nonFinite | null => exact asciiFormed (by decide)
  | boolean b =>
    cases b with
    | false => exact asciiFormed (by decide)
    | true => exact asciiFormed (by decide)
  | number n => exact numberFormed lawful n
  | negativeZero => exact numberFormed lawful _
  | string s => exact quotedFormed s
  | array items =>
    exact formedCons rfl (formedAppend (joinFormed (itemsFormed lawful items)) rfl)
  | object members =>
    exact formedCons rfl (formedAppend (joinFormed (membersFormed lawful members)) rfl)

theorem itemsFormed (lawful : f.Lawful) (items : List (Value N)) :
    ∀ s ∈ writeItems f items, wellFormed s = true := by
  cases items with
  | nil => exact fun s inside => absurd inside List.not_mem_nil
  | cons v rest =>
    intro s inside
    rcases List.mem_cons.mp inside with same | inside
    · exact same ▸ writeFormed lawful v
    · exact itemsFormed lawful rest s inside

theorem membersFormed (lawful : f.Lawful) (members : List (Text × Value N)) :
    ∀ s ∈ writeMembers f members, wellFormed s = true := by
  cases members with
  | nil => exact fun s inside => absurd inside List.not_mem_nil
  | cons member rest =>
    obtain ⟨key,v⟩ := member
    intro s inside
    rcases List.mem_cons.mp inside with same | inside
    · rw [same]
      exact formedAppend (quotedFormed key) (formedCons rfl (writeFormed lawful v))
    · exact membersFormed lawful rest s inside
end

def bytes (s : Text) : List UInt8 := (encode s).map UInt8.ofNat

def text (bytes : List UInt8) : Text := decode (bytes.map UInt8.toNat)

theorem textBytes {s : Text} (formed : wellFormed s = true) : text (bytes s) = s := by
  have same : ((encode s).map UInt8.ofNat).map UInt8.toNat = encode s := by
    rw [List.map_map]
    refine (List.map_congr_left fun b inside => ?_).trans (List.map_id _)
    have small := encodeSmall s b inside
    simp only [Function.comp,UInt8.toNat_ofNat',id]
    omega
  rw [text,bytes,same,decodeEncode formed]

end

end ControlCenter.JsonBytes
