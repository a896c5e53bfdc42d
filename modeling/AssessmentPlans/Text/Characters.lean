/-! The characters of a text, taken from its bytes one by one, and the numbers that ASCII digits
stand for. -/
namespace AssessmentPlans.Text

def isAscii (b : UInt8) : Bool := b.toNat < 128

/-- The characters of a text, which are its bytes if it is ASCII. This takes steps in
proportion to the length of the text, also where it is evaluated in a proof. -/
def characters (s : String) : List Char :=
  let bytes := s.toByteArray.data.toList
  if bytes.all isAscii then bytes.map fun b => Char.ofNat b.toNat else s.toList

/-- Only characters with a code of one byte have ASCII codes. -/
theorem encode_ascii {c : Char} (h : ∀ b ∈ String.utf8EncodeChar c, isAscii b = true) :
    String.utf8EncodeChar c = [UInt8.ofNat c.toNat] ∧ (UInt8.ofNat c.toNat).toNat = c.toNat := by
  by_cases low : c.toNat ≤ 127
  · refine ⟨if_pos low, ?_⟩
    rw [UInt8.toNat_ofNat']
    exact Nat.mod_eq_of_lt (by omega)
  · -- a longer code begins with a byte that is not ASCII
    have lead : ∃ n bs, String.utf8EncodeChar c = UInt8.ofNat n :: bs ∧ 128 ≤ n ∧ n < 256 := by
      have high : ¬c.val.toNat ≤ 127 := low
      simp only [String.utf8EncodeChar, high, if_false]
      split
      · exact ⟨_, _, rfl, by omega, by omega⟩
      · split
        · exact ⟨_, _, rfl, by omega, by omega⟩
        · exact ⟨_, _, rfl, by omega, by omega⟩
    obtain ⟨n, bs, code, least, most⟩ := lead
    rw [code] at h
    have ascii := of_decide_eq_true (h _ List.mem_cons_self)
    rw [UInt8.toNat_ofNat'] at ascii
    omega

theorem map_encode {cs : List Char} (h : ∀ b ∈ cs.flatMap String.utf8EncodeChar, isAscii b = true) :
    (cs.flatMap String.utf8EncodeChar).map (fun b => Char.ofNat b.toNat) = cs := by
  induction cs with
  | nil => rfl
  | cons c cs ih =>
      rw [List.flatMap_cons] at h ⊢
      obtain ⟨own, others⟩ := List.forall_mem_append.mp h
      obtain ⟨code, byte⟩ := encode_ascii own
      rw [List.map_append, ih others, code, List.map_singleton, byte, Char.ofNat_toNat,
        List.singleton_append]

theorem characters_eq (s : String) : characters s = s.toList := by
  have encoded : s.toByteArray = s.toList.utf8Encode := by
    rw [← String.toByteArray_ofList, String.ofList_toList]
  have bytes : s.toByteArray.data.toList = s.toList.flatMap String.utf8EncodeChar := by
    rw [encoded, List.utf8Encode]
    exact List.toList_data_toByteArray
  show (if s.toByteArray.data.toList.all isAscii then _ else _) = _
  rw [bytes]
  split
  · next ascii => exact map_encode (List.all_eq_true.mp ascii)
  · rfl

/-- The value of a digit below the radix; letters stand for ten and more, in
either case. -/
def digit? (radix : Nat) (c : Char) : Option Nat :=
  let value :=
    if '0' ≤ c && c ≤ '9' then some (c.toNat - '0'.toNat)
    else if 'a' ≤ c && c ≤ 'z' then some (c.toNat - 'a'.toNat + 10)
    else if 'A' ≤ c && c ≤ 'Z' then some (c.toNat - 'A'.toNat + 10)
    else none
  value.filter (· < radix)

/-- The number that digits stand for, most significant first. -/
def naturalFrom? (radix start : Nat) : List Char → Option Nat
  | [] => some start
  | c :: cs => (digit? radix c).bind fun d => naturalFrom? radix (radix * start + d) cs

/-- The number that digits stand for; there must be at least one. -/
def natural? (radix : Nat) (digits : List Char) : Option Nat :=
  if digits.isEmpty then none else naturalFrom? radix 0 digits

def isDigit (c : Char) : Bool := '0' ≤ c && c ≤ '9'

def isHexDigit (c : Char) : Bool := (digit? 16 c).isSome

end AssessmentPlans.Text
