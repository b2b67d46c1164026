/-
  Paths of SPDK namespaces.

  1. **Program** — `ParsePath` with its error texts, `std::from_chars` as it reads an unsigned
     decimal, `std::to_string` as `Nat.toDigits`; the longest address SPDK takes is a parameter.
  2. **Result** (`parsePath_canonical`) — the canonical form, under which `GetDevice` keeps its
     devices, says exactly what was parsed.
-/
import Bycorf.Base.Status
import Mathlib.Data.List.TakeWhile

namespace Bycorf.Spdk

def kSpdkPrefix : List Char := "spdk://".toList

/-- What `ParsePath` finds: the canonical text, the address and the namespace. -/
structure ParsedPath where
  canonical : List Char
  traddr : List Char
  nsid : Nat
deriving DecidableEq

/-- `std::from_chars` for a `uint32_t`: the number and what follows it. -/
def fromChars (text : List Char) : Option (Nat × List Char) :=
  let digits := text.takeWhile Char.isDigit
  let value := Nat.ofDigitChars 10 digits 0
  if digits = [] ∨ UInt32.size ≤ value then none else some (value, text.dropWhile Char.isDigit)

/-- `result.canonical_`. -/
def canonicalPath (traddr : List Char) (nsid : Nat) : List Char :=
  kSpdkPrefix ++ traddr ++ '/' :: Nat.toDigits 10 nsid

/-- Every error of the parser has this code. -/
def invalid {α : Type} (message : String) : Except Status α := .error ⟨.invalidArgument, message⟩

/-- The namespace id behind the address; without one it is 1. -/
def parseNsid : List Char → Except Status Nat
  | [] => .ok 1
  | _ :: ns =>
    if ns = [] then invalid "SPDK namespace id is empty"
    else match fromChars ns with
      | some (nsid + 1, []) => .ok (nsid + 1)
      | _ => invalid "invalid SPDK namespace id"

/-- `ParsePath`: the checks in their order, each with its message. -/
def parsePath (traddrMaxLen : Nat) (path : List Char) : Except Status ParsedPath :=
  let body := path.drop kSpdkPrefix.length
  let address := body.takeWhile (· ≠ '/')
  if ¬ kSpdkPrefix <+: path then invalid "SPDK path must start with spdk://"
  else if body = [] then invalid "SPDK path is missing PCI address"
  else match parseNsid (body.dropWhile (· ≠ '/')) with
    | .error status => .error status
    | .ok nsid =>
      if address = [] ∨ traddrMaxLen ≤ address.length then invalid "invalid SPDK PCI address"
      else .ok ⟨canonicalPath address nsid, address, nsid⟩

variable {traddrMaxLen : Nat} {path traddr rest : List Char} {nsid : Nat} {p : ParsedPath}

theorem parseNsid_ok (h : parseNsid rest = .ok nsid) : 0 < nsid ∧ nsid < UInt32.size := by
  unfold parseNsid fromChars invalid at h
  grind

theorem parseNsid_toDigits (hpos : 0 < nsid) (hlt : nsid < UInt32.size) :
    parseNsid ('/' :: Nat.toDigits 10 nsid) = .ok nsid := by
  have hdigits : ∀ c ∈ Nat.toDigits 10 nsid, c.isDigit = true :=
    fun c hc => Nat.isDigit_of_mem_toDigits (by decide) (by decide) hc
  have hfrom : fromChars (Nat.toDigits 10 nsid) = some (nsid, []) := by
    simp only [fromChars, List.takeWhile_eq_self_iff.mpr hdigits,
      List.dropWhile_eq_nil_iff.mpr hdigits, Nat.ofDigitChars_ten_toDigits]
    exact if_neg (by simp; omega)
  obtain ⟨k, rfl⟩ := Nat.exists_eq_add_of_lt hpos
  rw [parseNsid, if_neg Nat.toDigits_ne_nil, hfrom]

/-- What an accepted path gives. -/
theorem parsePath_ok (h : parsePath traddrMaxLen path = .ok p) :
    p.canonical = canonicalPath p.traddr p.nsid ∧ '/' ∉ p.traddr ∧ p.traddr ≠ [] ∧
      p.traddr.length < traddrMaxLen ∧ 0 < p.nsid ∧ p.nsid < UInt32.size := by
  unfold parsePath invalid at h
  dsimp only at h
  split at h
  · cases h
  split at h
  · cases h
  split at h
  · cases h
  rename_i nsid hnsid
  split at h
  · cases h
  rename_i haddress
  cases h
  rw [not_or, Nat.not_le] at haddress
  refine ⟨rfl, fun hmem => ?_, haddress.1, haddress.2, parseNsid_ok hnsid⟩
  simpa using List.mem_takeWhile_imp hmem

theorem parsePath_canonicalPath (hslash : '/' ∉ traddr) (hne : traddr ≠ [])
    (hlen : traddr.length < traddrMaxLen) (hpos : 0 < nsid) (hlt : nsid < UInt32.size) :
    parsePath traddrMaxLen (canonicalPath traddr nsid) =
      .ok ⟨canonicalPath traddr nsid, traddr, nsid⟩ := by
  have hall : ∀ c ∈ traddr, decide (c ≠ '/') = true :=
    fun c hc => decide_eq_true fun heq => hslash (heq ▸ hc)
  have hbody : (canonicalPath traddr nsid).drop kSpdkPrefix.length =
      traddr ++ '/' :: Nat.toDigits 10 nsid := by
    rw [canonicalPath, List.append_assoc, List.drop_left]
  have haddress : (traddr ++ '/' :: Nat.toDigits 10 nsid).takeWhile (· ≠ '/') = traddr := by
    rw [List.takeWhile_append_of_pos hall]
    simp
  have hrest : (traddr ++ '/' :: Nat.toDigits 10 nsid).dropWhile (· ≠ '/') =
      '/' :: Nat.toDigits 10 nsid := by
    rw [List.dropWhile_append_of_pos hall]
    simp
  have hstarts : kSpdkPrefix <+: canonicalPath traddr nsid := by
    rw [canonicalPath, List.append_assoc]
    exact List.prefix_append ..
  simp only [parsePath, hbody, haddress, hrest, parseNsid_toDigits hpos hlt]
  rw [if_neg (not_not_intro hstarts), if_neg (by simp), if_neg (by simp [hne, hlen])]

/-- **The canonical form is a faithful key**: it is accepted as a path and says the same again, and
    two accepted paths share it if and only if they name one namespace of one controller. -/
theorem parsePath_canonical (traddrMaxLen : Nat) :
    (∀ path p, parsePath traddrMaxLen path = .ok p → parsePath traddrMaxLen p.canonical = .ok p) ∧
    ∀ path path' p p', parsePath traddrMaxLen path = .ok p → parsePath traddrMaxLen path' = .ok p' →
      (p.canonical = p'.canonical ↔ p.traddr = p'.traddr ∧ p.nsid = p'.nsid) := by
  have hself : ∀ path p, parsePath traddrMaxLen path = .ok p →
      parsePath traddrMaxLen p.canonical = .ok p := by
    rintro path ⟨canonical, traddr, nsid⟩ h
    obtain ⟨hcanonical, hslash, hne, hlen, hpos, hlt⟩ := parsePath_ok h
    dsimp only at hcanonical
    subst hcanonical
    exact parsePath_canonicalPath hslash hne hlen hpos hlt
  refine ⟨hself, fun path path' p p' h h' => ⟨fun heq => ?_, fun heq => ?_⟩⟩
  · have := (hself path p h).symm.trans (heq ▸ hself path' p' h')
    cases this
    exact ⟨rfl, rfl⟩
  · rw [(parsePath_ok h).1, (parsePath_ok h').1, heq.1, heq.2]

/-- Leading zeros of the namespace id are accepted, and left out of the canonical form. -/
example : parsePath 257 "spdk://0000:01:00.0/007".toList =
    .ok ⟨"spdk://0000:01:00.0/7".toList, "0000:01:00.0".toList, 7⟩ := by
  decide +kernel

end Bycorf.Spdk
