import ProviderAssets.Image
import Mathlib.Data.List.TakeWhile
import Mathlib.Logic.Function.Basic

/-!
# The parts of an image

An image is written as a path, a bare name and a mark: the path leads through a registry and its
repositories, and the mark is a tag, a digest, or a tag with a digest. `Image.Reference` holds these
parts with what tells them apart. Every text is one image in such parts and no other
(`Image.text_bijective`), and the cuts that are made at a slash, an at sign and a colon find them: the
main statement `Image.bareName_reference` says that the bare name of an image is the part of that name,
so that the key of an image does not depend on the two other parts.
-/

namespace ProviderAssets.Image

/-- Characters of which bare names are made: all but those at which images are cut. -/
def isBare (c : Char) : Bool := c ≠ '/' && c ≠ '@' && c ≠ ':'

/-- An image in its parts. -/
@[ext] structure Reference where
  /-- The registry, with its port if it has one, and the repositories in it. -/
  path : String
  /-- The bare name. -/
  name : String
  /-- The tag and the digest. -/
  mark : String
  /-- A path ends in a slash. -/
  path_end : ∀ c ∈ path.toList.getLast?, c = '/'
  /-- A name is not cut. -/
  name_bare : ∀ c ∈ name.toList, isBare c = true
  /-- A mark begins with one of two characters. -/
  mark_head : ∀ c ∈ mark.toList.head?, c = '@' ∨ c = ':'
  /-- A mark has no slash. -/
  mark_flat : '/' ∉ mark.toList

namespace Reference

/-- An image as it is written. -/
def text (r : Reference) : String := r.path ++ (r.name ++ r.mark)

/-- The image of the same name with the path and the mark of another one. -/
def inPlaceOf (r s : Reference) : Reference := { s with name := r.name, name_bare := r.name_bare }

end Reference

/-! ## Cutting an image -/

/-- A bare character is none at which images are cut. -/
theorem isBare_iff (c : Char) : isBare c = true ↔ c ≠ '/' ∧ c ≠ '@' ∧ c ≠ ':' := by
  simp [isBare, and_assoc]

/-- Where a path ends in a slash, the last segment is what follows the path. -/
theorem lastSegment_append {path segment : List Char} (path_end : ∀ c ∈ path.getLast?, c = '/')
    (flat : '/' ∉ segment) : lastSegment (path ++ segment) = segment := by
  have hsegment : ∀ c ∈ segment.reverse, decide (c ≠ '/') = true := by
    intro c hc
    refine decide_eq_true ?_
    rintro rfl
    exact flat (List.mem_reverse.1 hc)
  have hpath : path.reverse.takeWhile (· ≠ '/') = [] := by
    cases hlast : path.reverse with
    | nil => rfl
    | cons c before =>
      have hc : c = '/' := path_end c (by rw [← List.head?_reverse, hlast]; rfl)
      exact List.takeWhile_cons_of_neg (by simpa using hc)
  calc lastSegment (path ++ segment)
      = ((segment.reverse ++ path.reverse).takeWhile (· ≠ '/')).reverse := by
        rw [lastSegment, List.reverse_append]
    _ = (segment.reverse ++ path.reverse.takeWhile (· ≠ '/')).reverse := by
        rw [List.takeWhile_append_of_pos hsegment]
    _ = segment := by rw [hpath, List.append_nil, List.reverse_reverse]

/-- The cut at an at sign and the one at a colon leave the name of what is a name and a mark. -/
theorem takeWhile_append_mark {name mark : List Char} (bare : ∀ c ∈ name, isBare c = true)
    (mark_head : ∀ c ∈ mark.head?, c = '@' ∨ c = ':') :
    ((name ++ mark).takeWhile (· ≠ '@')).takeWhile (· ≠ ':') = name := by
  have hname : ∀ c ∈ name, decide (decide (c ≠ ':') = true ∧ decide (c ≠ '@') = true) = true := by
    intro c hc
    obtain ⟨-, hat, hcolon⟩ := (isBare_iff c).1 (bare c hc)
    simp [hat, hcolon]
  rw [List.takeWhile_takeWhile, List.takeWhile_append_of_pos hname]
  cases mark with
  | nil => exact List.append_nil name
  | cons c after =>
    rw [List.takeWhile_cons_of_neg, List.append_nil]
    rcases mark_head c rfl with rfl | rfl
    · simp
    · simp

namespace Reference

variable (r s : Reference)

/-- What follows the path of an image is its last segment. -/
theorem lastSegment_text : lastSegment r.text.toList = (r.name ++ r.mark).toList := by
  have flat : '/' ∉ (r.name ++ r.mark).toList := by
    rw [String.toList_append, List.mem_append]
    rintro (h | h)
    · exact ((isBare_iff '/').1 (r.name_bare '/' h)).1 rfl
    · exact r.mark_flat h
  rw [text, String.toList_append]
  exact lastSegment_append r.path_end flat

/-- The bare name of an image is its part of that name. -/
theorem bareName_text : bareName r.text = r.name := by
  unfold bareName
  rw [lastSegment_text, String.toList_append, takeWhile_append_mark r.name_bare r.mark_head,
    String.ofList_toList]

/-- Images that are written in the same way have the same parts. -/
theorem text_injective : Function.Injective text := by
  intro r s h
  have hname : r.name = s.name := by
    rw [← bareName_text, h, bareName_text]
  have hsegment : r.name ++ r.mark = s.name ++ s.mark := by
    rw [← String.toList_inj, ← lastSegment_text, h, lastSegment_text]
  have hpath : r.path = s.path := by
    refine (String.append_left_inj (s.name ++ s.mark)).1 ?_
    calc r.path ++ (s.name ++ s.mark) = r.text := by rw [text, hsegment]
      _ = s.path ++ (s.name ++ s.mark) := h
  have hmark : r.mark = s.mark := by
    rw [hname] at hsegment
    exact (String.append_right_inj s.name).1 hsegment
  exact Reference.ext hpath hname hmark

/-- Every text is an image in its parts: the path is all up to the last slash, and the name is what
follows it up to the first character that is not bare. -/
theorem text_surjective : Function.Surjective text := by
  intro image
  have flat : ∀ c ∈ lastSegment image.toList, c ≠ '/' := by
    intro c hc
    simpa using List.mem_takeWhile_imp (List.mem_reverse.1 hc)
  have mem_mark {c : Char} (hc : c ∈ (lastSegment image.toList).dropWhile isBare) :
      c ∈ lastSegment image.toList := (List.dropWhile_sublist _).mem hc
  refine ⟨{ path := String.ofList (image.toList.reverse.dropWhile (· ≠ '/')).reverse
            name := String.ofList ((lastSegment image.toList).takeWhile isBare)
            mark := String.ofList ((lastSegment image.toList).dropWhile isBare)
            path_end := ?_, name_bare := ?_, mark_head := ?_, mark_flat := ?_ }, ?_⟩
  · intro c hc
    rw [String.toList_ofList, List.getLast?_reverse] at hc
    have hcut := List.head?_dropWhile_not (· ≠ '/') image.toList.reverse
    rw [hc] at hcut
    simpa using hcut
  · intro c hc
    rw [String.toList_ofList] at hc
    exact List.mem_takeWhile_imp hc
  · intro c hc
    rw [String.toList_ofList] at hc
    have hcut := List.head?_dropWhile_not isBare (lastSegment image.toList)
    rw [hc] at hcut
    have hslash : c ≠ '/' := flat c (mem_mark (List.mem_of_mem_head? hc))
    by_contra hne
    obtain ⟨hat, hcolon⟩ := not_or.1 hne
    have hbare : isBare c = true := (isBare_iff c).2 ⟨hslash, hat, hcolon⟩
    simp [hbare] at hcut
  · intro h
    rw [String.toList_ofList] at h
    exact flat '/' (mem_mark h) rfl
  · have hsegment := List.takeWhile_append_dropWhile (p := isBare) (l := lastSegment image.toList)
    have hall := List.takeWhile_append_dropWhile (p := (· ≠ '/')) (l := image.toList.reverse)
    rw [text, ← String.ofList_append, hsegment, ← String.ofList_append, lastSegment,
      ← List.reverse_append, hall, List.reverse_reverse, String.ofList_toList]

end Reference

/-- What the bare name of an image is. Every text is one image in parts and no other; its bare name is
the part of that name, whatever the path and the mark; and its key stays the same for any provider if
another path and another mark are given to it, or some where there were none, or none where there
were some. -/
theorem bareName_reference :
    Function.Bijective Reference.text ∧
    (∀ r : Reference, bareName r.text = r.name) ∧
    ∀ (p : Provider) (r s : Reference), key p (r.inPlaceOf s).text = key p r.text := by
  refine ⟨⟨Reference.text_injective, Reference.text_surjective⟩, Reference.bareName_text, ?_⟩
  intro p r s
  have hname : bareName (r.inPlaceOf s).text = bareName r.text := by
    rw [Reference.bareName_text, Reference.bareName_text, Reference.inPlaceOf]
  unfold key
  rw [hname]

-- The colon of a port stands before the last slash, and the one in a digest after the at sign.
example : bareName "registry:5000/capi/manager:v1@sha256:0123" = "manager" := by decide +kernel

end ProviderAssets.Image
