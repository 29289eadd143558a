import Mathlib.Data.List.Basic

/-!
# Chunks and phrases

A text is cut at its spaces into chunks, and joining them by spaces gives the text back. Texts that
are laid out as phrases, each opened by a word of its own, are taken apart again into these
phrases, although any of them may be absent.
-/

set_option autoImplicit false

namespace BoundQuery

namespace Text

/-- What stands between the spaces of a text. A text has one chunk more than it has spaces. -/
def chunks (text : String) : List String :=
  (text.toList.splitOn ' ').map String.ofList

theorem intercalate_chunks (text : String) : " ".intercalate (chunks text) = text := by
  have sameChars : (chunks text).map String.toList = text.toList.splitOn ' ' := by
    rw [chunks, List.map_map]
    conv_rhs => rw [← List.map_id (text.toList.splitOn ' ')]
    exact List.map_congr_left fun chars _ => String.toList_ofList
  apply String.toList_inj.mp
  rw [String.toList_intercalate, sameChars]
  exact List.intercalate_splitOn ' '

/-- No two texts have the same chunks. -/
theorem chunks_inj {left right : String} (same : chunks left = chunks right) : left = right := by
  rw [← intercalate_chunks left, same, intercalate_chunks]

theorem chunks_eq_singleton {text : String} (spaceless : ' ' ∉ text.toList) :
    chunks text = [text] := by
  rw [chunks, List.splitOn_eq_singleton spaceless, List.map_cons, List.map_nil,
    String.ofList_toList]

theorem chunks_append_space (left right : String) :
    chunks (left ++ " " ++ right) = chunks left ++ chunks right := by
  have chars : (left ++ " " ++ right).toList = left.toList ++ ' ' :: right.toList := by simp
  rw [chunks, chars, List.splitOn_append_cons_self, List.map_append]
  rfl

theorem chunks_pair {first second : String} (firstSpaceless : ' ' ∉ first.toList)
    (secondSpaceless : ' ' ∉ second.toList) :
    chunks (first ++ " " ++ second) = [first, second] := by
  rw [chunks_append_space, chunks_eq_singleton firstSpaceless,
    chunks_eq_singleton secondSpaceless]
  rfl

theorem chunks_intercalate {parts : List String} (written : parts ≠ []) :
    chunks (" ".intercalate parts) = parts.flatMap chunks := by
  induction parts with
  | nil => exact absurd rfl written
  | cons part rest ih =>
    cases rest with
    | nil => simp
    | cons next others =>
      rw [String.intercalate_cons_cons, chunks_append_space, ih (by simp)]
      rfl

private theorem splitOn_cons_mark {mark : Char} (notSpace : mark ≠ ' ') (chars : List Char) :
    ∃ head tail, chars.splitOn ' ' = head :: tail ∧
      (mark :: chars).splitOn ' ' = (mark :: head) :: tail := by
  obtain ⟨head, tail, parts⟩ := List.exists_cons_of_ne_nil (List.splitOn_ne_nil ' ' chars)
  refine ⟨head, tail, parts, ?_⟩
  rw [List.splitOn_cons_eq_if_modifyHead, if_neg (by simpa using notSpace), parts]
  rfl

private theorem splitOn_append_mark {mark : Char} (notSpace : mark ≠ ' ') (chars : List Char) :
    ∃ front last, chars.splitOn ' ' = front ++ [last] ∧
      (chars ++ [mark]).splitOn ' ' = front ++ [last ++ [mark]] := by
  induction chars with
  | nil =>
    have single : ' ' ∉ [mark] := by simpa using Ne.symm notSpace
    exact ⟨[], [], List.splitOn_nil ' ', List.splitOn_eq_singleton single⟩
  | cons char rest ih =>
    obtain ⟨front, last, parts, marked⟩ := ih
    rw [List.cons_append, List.splitOn_cons_eq_if_modifyHead, List.splitOn_cons_eq_if_modifyHead,
      parts, marked]
    by_cases space : (char == ' ') = true
    · rw [if_pos space, if_pos space]
      exact ⟨[] :: front, last, rfl, rfl⟩
    · rw [if_neg space, if_neg space]
      cases front with
      | nil => exact ⟨[], char :: last, rfl, rfl⟩
      | cons first others => exact ⟨(char :: first) :: others, last, rfl, rfl⟩

/-- Parentheses around a text go to its outer chunks and leave the others as they are. -/
theorem mem_chunks_parenthesized {text chunk : String}
    (isChunk : chunk ∈ chunks ("(" ++ text ++ ")")) :
    '(' ∈ chunk.toList ∨ ')' ∈ chunk.toList ∨ chunk ∈ chunks text := by
  have chars : ("(" ++ text ++ ")").toList = '(' :: (text.toList ++ [')']) := by simp
  obtain ⟨head, tail, parts, opened⟩ := splitOn_cons_mark (by decide : '(' ≠ ' ')
    (text.toList ++ [')'])
  obtain ⟨front, last, inner, closed⟩ := splitOn_append_mark (by decide : ')' ≠ ' ') text.toList
  rw [chunks, chars, opened] at isChunk
  obtain ⟨part, isPart, rfl⟩ := List.mem_map.mp isChunk
  rw [String.toList_ofList]
  rcases List.mem_cons.mp isPart with rfl | inTail
  · exact .inl List.mem_cons_self
  · have inClosed : part ∈ front ++ [last ++ [')']] := by
      rw [← closed, parts]
      exact List.mem_cons_of_mem head inTail
    rcases List.mem_append.mp inClosed with inFront | isLast
    · refine .inr (.inr (List.mem_map.mpr ⟨part, ?_, rfl⟩))
      rw [inner]
      exact List.mem_append_left _ inFront
    · obtain rfl := List.mem_singleton.mp isLast
      exact .inr (.inl (List.mem_append_right last List.mem_cons_self))

/-- The chunks of a list with commas between its items. -/
def listed : List String → List String
  | [] => []
  | [item] => [item]
  | item :: next :: rest => (item ++ ",") :: listed (next :: rest)

theorem chunks_list {items : List String} (written : items ≠ [])
    (spaceless : ∀ item ∈ items, ' ' ∉ item.toList) :
    chunks (", ".intercalate items) = listed items := by
  induction items with
  | nil => exact absurd rfl written
  | cons item rest ih =>
    obtain ⟨itemSpaceless, restSpaceless⟩ := List.forall_mem_cons.mp spaceless
    cases rest with
    | nil =>
      rw [String.intercalate_singleton]
      exact chunks_eq_singleton itemSpaceless
    | cons next others =>
      have comma : ' ' ∉ (item ++ ",").toList := by simpa using itemSpaceless
      have separated : item ++ ", " = item ++ "," ++ " " := by
        rw [String.append_assoc]
        rfl
      rw [String.intercalate_cons_cons, separated, chunks_append_space,
        chunks_eq_singleton comma, ih (by simp) restSpaceless]
      rfl

/-- A listed item has no comma of its own only at the end of the list. -/
theorem listed_inj {left right : List String} (same : listed left = listed right) :
    left = right := by
  induction left generalizing right with
  | nil =>
    match right with
    | [] => rfl
    | [_] => cases same
    | _ :: _ :: _ => cases same
  | cons item rest ih =>
    match rest, right with
    | [], [] => cases same
    | [], [other] => exact same
    | [], _ :: [_] => cases same
    | [], _ :: _ :: _ :: _ => cases same
    | _ :: _, [] => cases same
    | [_], [_] => cases same
    | _ :: _ :: _, [_] => cases same
    | next :: others, other :: next' :: others' =>
      obtain ⟨head, tails⟩ := List.cons.inj same
      rw [String.append_left_inj] at head
      rw [head, ih tails]

theorem mem_listed {items : List String} {chunk : String} (isChunk : chunk ∈ listed items) :
    chunk ∈ items ∨ ',' ∈ chunk.toList := by
  induction items with
  | nil => cases isChunk
  | cons item rest ih =>
    cases rest with
    | nil => exact .inl isChunk
    | cons next others =>
      rcases List.mem_cons.mp isChunk with rfl | isOther
      · exact .inr (by simp)
      · rcases ih isOther with isItem | comma
        · exact .inl (List.mem_cons_of_mem item isItem)
        · exact .inr comma

end Text

/-- A stretch of chunks opened by a word of its own, or nothing at all. -/
structure Phrase where
  word : String
  body : Option (List String)

namespace Phrase

def chunks (phrase : Phrase) : List String :=
  phrase.body.elim [] (phrase.word :: ·)

/-- No chunk after the opening word is one of the words by which phrases are opened. -/
def Avoids (leads : List String) (phrase : Phrase) : Prop :=
  ∀ body ∈ phrase.body, ∀ chunk ∈ body, chunk ∉ leads

theorem avoids_some {leads body : List String} {word : String}
    (avoids : ∀ chunk ∈ body, chunk ∉ leads) : Avoids leads ⟨word, some body⟩ := by
  intro chunks isBody
  obtain rfl := Option.some.inj isBody
  exact avoids

theorem avoids_none {leads : List String} {word : String} : Avoids leads ⟨word, none⟩ := by
  intro chunks isBody
  cases isBody

def layOut (phrases : List Phrase) : List String :=
  phrases.flatMap chunks

variable {leads : List String}

theorem head?_layOut_mem {phrases : List Phrase} :
    ∀ chunk ∈ (layOut phrases).head?, chunk ∈ phrases.map word := by
  induction phrases with
  | nil => simp [layOut]
  | cons phrase rest ih =>
    intro chunk isHead
    rw [layOut, List.flatMap_cons, chunks] at isHead
    cases present : phrase.body with
    | none =>
      rw [present] at isHead
      exact List.mem_cons_of_mem _ (ih chunk isHead)
    | some body =>
      rw [present] at isHead
      obtain rfl : phrase.word = chunk := by simpa using isHead
      exact List.mem_cons_self

/-- A body ends at the first word that opens a phrase. -/
theorem append_inj_of_leads {body body' rest rest' : List String}
    (avoids : ∀ chunk ∈ body, chunk ∉ leads) (avoids' : ∀ chunk ∈ body', chunk ∉ leads)
    (leading : ∀ chunk ∈ rest.head?, chunk ∈ leads)
    (leading' : ∀ chunk ∈ rest'.head?, chunk ∈ leads)
    (same : body ++ rest = body' ++ rest') : body = body' ∧ rest = rest' := by
  induction body generalizing body' with
  | nil =>
    cases body' with
    | nil => exact ⟨rfl, same⟩
    | cons chunk' others' =>
      have isLead : chunk' ∈ leads := by
        refine leading chunk' ?_
        rw [← List.nil_append rest, same]
        rfl
      exact absurd isLead (avoids' chunk' List.mem_cons_self)
  | cons chunk others ih =>
    obtain ⟨-, othersAvoid⟩ := List.forall_mem_cons.mp avoids
    cases body' with
    | nil =>
      have isLead : chunk ∈ leads := by
        refine leading' chunk ?_
        rw [← List.nil_append rest', ← same]
        rfl
      exact absurd isLead (avoids chunk List.mem_cons_self)
    | cons chunk' others' =>
      obtain ⟨-, othersAvoid'⟩ := List.forall_mem_cons.mp avoids'
      obtain ⟨rfl, tails⟩ := List.cons.inj same
      obtain ⟨rfl, rests⟩ := ih othersAvoid othersAvoid' tails
      exact ⟨rfl, rests⟩

/-- Phrases are found again in their chunks, those that are absent too, if no word opens two of
them and none is used inside of one. -/
theorem layOut_inj {left right : List Phrase} (words : left.map word = right.map word)
    (nodup : (left.map word).Nodup) (isLead : ∀ opening ∈ left.map word, opening ∈ leads)
    (leftAvoids : ∀ phrase ∈ left, phrase.Avoids leads)
    (rightAvoids : ∀ phrase ∈ right, phrase.Avoids leads)
    (same : layOut left = layOut right) : left = right := by
  induction left generalizing right with
  | nil => exact (List.map_eq_nil_iff.mp words.symm).symm
  | cons phrase rest ih =>
    cases right with
    | nil => cases words
    | cons phrase' rest' =>
      obtain ⟨word, body⟩ := phrase
      obtain ⟨word', body'⟩ := phrase'
      obtain ⟨rfl : word = word', restWords⟩ := List.cons.inj words
      obtain ⟨notAgain, restNodup⟩ := List.nodup_cons.mp nodup
      obtain ⟨-, restLead⟩ := List.forall_mem_cons.mp isLead
      obtain ⟨avoids, restAvoid⟩ := List.forall_mem_cons.mp leftAvoids
      obtain ⟨avoids', restAvoid'⟩ := List.forall_mem_cons.mp rightAvoids
      have recurse (tails : layOut rest = layOut rest') : rest = rest' :=
        ih restWords restNodup restLead restAvoid restAvoid' tails
      -- A phrase that only one side has would open where the other side goes on without it.
      have notNext : word ∉ (layOut rest).head? := fun next => notAgain (head?_layOut_mem _ next)
      have notNext' : word ∉ (layOut rest').head? := by
        intro next
        have again := head?_layOut_mem _ next
        rw [← restWords] at again
        exact notAgain again
      cases body with
      | none =>
        cases body' with
        | none =>
          rw [recurse same]
        | some chunks' =>
          refine absurd ?_ notNext
          have laidOut : layOut rest = word :: (chunks' ++ layOut rest') := same
          rw [laidOut]
          rfl
      | some chunks =>
        cases body' with
        | none =>
          refine absurd ?_ notNext'
          have laidOut : layOut rest' = word :: (chunks ++ layOut rest) := same.symm
          rw [laidOut]
          rfl
        | some chunks' =>
          obtain ⟨-, tails⟩ := List.cons.inj same
          have leading : ∀ chunk ∈ (layOut rest).head?, chunk ∈ leads := fun chunk isHead =>
            restLead chunk (head?_layOut_mem chunk isHead)
          have leading' : ∀ chunk ∈ (layOut rest').head?, chunk ∈ leads := by
            intro chunk isHead
            refine restLead chunk ?_
            rw [restWords]
            exact head?_layOut_mem chunk isHead
          obtain ⟨rfl, rests⟩ := append_inj_of_leads (avoids chunks rfl) (avoids' chunks' rfl)
            leading leading' tails
          rw [recurse rests]

end Phrase

end BoundQuery
