import ProviderAssets.Text.Lowercase

/-!
# Case variants

Characters that differ in case alone are variants of each other. Two characters are variants if they
have the same key: mostly their lower case, with a few characters that stand for another letter.
-/

namespace ProviderAssets.Text

/-- Characters that are variants of another letter without being its upper case. -/
def otherVariants : List (Nat × Nat) :=
  [(0xB5, 0x3BC), (0x17F, 0x73), (0x345, 0x3B9), (0x3C2, 0x3C3), (0x3D0, 0x3B2), (0x3D1, 0x3B8),
   (0x3D5, 0x3C6), (0x3D6, 0x3C0), (0x3F0, 0x3BA), (0x3F1, 0x3C1), (0x3F5, 0x3B5), (0x1C80, 0x432),
   (0x1C81, 0x434), (0x1C82, 0x43E), (0x1C83, 0x441), (0x1C84, 0x442), (0x1C85, 0x442),
   (0x1C86, 0x44A), (0x1C87, 0x463), (0x1C88, 0xA64B), (0x1E9B, 0x1E61), (0x1FBE, 0x3B9),
   (0x1FD3, 0x390), (0x1FE3, 0x3B0), (0xFB05, 0xFB06)]

/-- What variants have in common. -/
def caseKey (c : Char) : Char :=
  match otherVariants.lookup c.toNat with
  | some n => Char.ofNat n
  | none =>
    match lowerChar c with
    | [d] => d
    | _ => c

/-- The characters that lower-casing takes to `c`. -/
def upperVariants (c : Char) : List Char :=
  let n : Int := c.toNat
  let beyond := lowerRuns.filterMap fun (first, last, step, distance) =>
    let m := n - distance
    if (first : Int) ≤ m ∧ m ≤ last ∧ (m - first) % step = 0 then some (Char.ofNat m.toNat)
    else none
  if c.toNat < 128 then c.toUpper :: beyond else beyond

/-- The variants of a character, itself included. -/
def caseVariants (c : Char) : List Char :=
  let key := caseKey c
  c :: key :: upperVariants key ++
    (otherVariants.filter (·.2 = key.toNat)).map fun (n, _) => Char.ofNat n

end ProviderAssets.Text
