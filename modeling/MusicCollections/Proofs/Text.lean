/-
# Splitting, trimming and lines

A text splits at the first separator into what stands before it and what stands after
it (`splitAtFirst_eq_some_iff`).  White space at either end does not change what a text
is trimmed to (`trimChars_cons`, `trimChars_append_singleton`), and what was trimmed
begins and ends in something else (`Trimmed`).

Lines that hold no line feed and do not end in a carriage return read back
(`lines_join_lines`), and no line that is read holds a line feed
(`newline_not_mem_lines`).  Parts without the separator read back when they are joined by it
(`parts_join`).
-/

import Mathlib.Data.List.DropRight
import Mathlib.Data.List.TakeDrop
import MusicCollections.Text.Blank
import MusicCollections.Text.Lines

namespace MusicCollections
namespace Text

/-- What is left when a run at the start is dropped does not begin like the run. -/
theorem head_of_dropWhile {α : Type} {p : α → Bool} {l rest : List α} {a : α}
    (h : l.dropWhile p = a :: rest) : p a = false := by
  have hhead := List.head_dropWhile_not p (l := l) (by simp [h])
  simpa [h] using hhead

/-! ## Splitting -/

section Split

variable {sep : Char} {s before after : String}

/-- **A text splits at its first separator.** -/
theorem splitAtFirst_eq_some_iff : splitAtFirst sep s = some (before, after) ↔
    s.toList = before.toList ++ sep :: after.toList ∧ sep ∉ before.toList := by
  unfold splitAtFirst
  rw [List.span_eq_takeWhile_dropWhile]
  constructor
  · intro h
    cases hdrop : s.toList.dropWhile (· ≠ sep) with
    | nil =>
      rw [hdrop] at h
      cases h
    | cons c rest =>
      have hc : c = sep := by simpa using head_of_dropWhile hdrop
      rw [hdrop] at h
      obtain ⟨rfl, rfl⟩ := Prod.mk.inj (Option.some.inj h)
      constructor
      · have hsplit := List.takeWhile_append_dropWhile (p := (· ≠ sep)) (l := s.toList)
        rw [hdrop, hc] at hsplit
        simpa using hsplit.symm
      · intro hmem
        rw [String.toList_ofList] at hmem
        simpa using List.mem_takeWhile_imp hmem
  · rintro ⟨hs, hbefore⟩
    have hall : ∀ c ∈ before.toList, decide (c ≠ sep) = true := by
      intro c hc
      exact decide_eq_true fun h => hbefore (h ▸ hc)
    rw [hs, List.dropWhile_append_of_pos hall, List.takeWhile_append_of_pos hall]
    simp

/-- There is no split if and only if the separator does not occur. -/
theorem splitAtFirst_eq_none_iff : splitAtFirst sep s = none ↔ sep ∉ s.toList := by
  constructor
  · intro h hmem
    obtain ⟨before, after, hs, hbefore⟩ := List.eq_append_cons_of_mem hmem
    have hsome : splitAtFirst sep s = some (String.ofList before, String.ofList after) :=
      splitAtFirst_eq_some_iff.2 (by simp [hs, hbefore])
    cases h.symm.trans hsome
  · intro h
    cases hsplit : splitAtFirst sep s with
    | none => rfl
    | some parts =>
      obtain ⟨hs, -⟩ := splitAtFirst_eq_some_iff.1 hsplit
      exact absurd (by simp [hs]) h

end Split

/-! ## Trimming -/

variable {cs : List Char} {c : Char}

/-- The characters begin and end in something other than white space. -/
structure Trimmed (cs : List Char) : Prop where
  head : ∀ c ∈ cs.head?, isBlank c = false
  last : ∀ c ∈ cs.getLast?, isBlank c = false

/-- Trimming the end drops white space from it. -/
theorem trimEnd_eq_rdropWhile (cs : List Char) : trimEnd cs = cs.rdropWhile isBlank := rfl

/-- White space at the start does not count. -/
theorem trimChars_cons (h : isBlank c = true) (cs : List Char) :
    trimChars (c :: cs) = trimChars cs := by
  simp [trimChars, h]

/-- White space at the end does not count. -/
theorem trimChars_append_singleton (h : isBlank c = true) (cs : List Char) :
    trimChars (cs ++ [c]) = trimChars cs := by
  unfold trimChars
  rw [List.dropWhile_append]
  split
  · rename_i hempty
    rw [List.isEmpty_iff.1 hempty, List.dropWhile_cons_of_pos h, List.dropWhile_nil]
  · rw [trimEnd_eq_rdropWhile, List.rdropWhile_concat_pos _ _ _ h, trimEnd_eq_rdropWhile]

/-- Nothing is dropped from a text that begins in no white space. -/
theorem dropWhile_isBlank_eq_self (h : ∀ c ∈ cs.head?, isBlank c = false) :
    cs.dropWhile isBlank = cs := by
  cases cs with
  | nil => rfl
  | cons c cs => rw [List.dropWhile_cons_of_neg (by simpa using h c rfl)]

/-- A text that begins in something other than white space keeps its start. -/
theorem head?_trimChars (h : ∀ c ∈ cs.head?, isBlank c = false) (hne : trimChars cs ≠ []) :
    (trimChars cs).head? = cs.head? := by
  obtain ⟨rest, hrest⟩ : trimChars cs <+: cs := by
    rw [trimChars, dropWhile_isBlank_eq_self h]
    exact List.rdropWhile_prefix isBlank cs
  obtain ⟨c, left, hleft⟩ := List.exists_cons_of_ne_nil hne
  rw [hleft] at hrest ⊢
  rw [← hrest]
  rfl

/-- Trimming changes nothing that is trimmed. -/
theorem Trimmed.trimChars_eq (h : Trimmed cs) : trimChars cs = cs := by
  rw [trimChars, dropWhile_isBlank_eq_self h.head, trimEnd_eq_rdropWhile,
    List.rdropWhile_eq_self_iff]
  intro hne
  simp [h.last _ (List.getLast_mem_getLast? hne)]

/-- **What was trimmed is trimmed.** -/
theorem trimmed_trimChars (cs : List Char) : Trimmed (trimChars cs) where
  head c hc := by
    -- What is left begins what was left of the start.
    obtain ⟨rest, hrest⟩ : trimChars cs <+: cs.dropWhile isBlank :=
      List.rdropWhile_prefix isBlank (cs.dropWhile isBlank)
    cases htrim : trimChars cs with
    | nil => simp [htrim] at hc
    | cons d left =>
      rw [htrim] at hc hrest
      obtain rfl : d = c := by simpa using hc
      exact head_of_dropWhile hrest.symm
  last c hc := by
    have hne : trimChars cs ≠ [] := by
      intro h
      simp [h] at hc
    have hlast := List.rdropWhile_last_not isBlank (cs.dropWhile isBlank) hne
    rw [List.getLast?_eq_some_getLast hne] at hc
    obtain rfl := Option.some.inj hc
    exact Bool.eq_false_iff.2 hlast

/-- The characters of a trimmed text. -/
theorem toList_trim (s : String) : (trim s).toList = trimChars s.toList := by
  rw [trim, String.toList_ofList]

/-- **Trimming leaves no white space at either end.** -/
theorem trimmed_trim (s : String) : Trimmed (trim s).toList := by
  rw [toList_trim]
  exact trimmed_trimChars s.toList

/-- A text is left by trimming if and only if it has no white space at either end. -/
theorem trim_eq_iff {s : String} : trim s = s ↔ Trimmed s.toList := by
  constructor
  · intro h
    rw [← h]
    exact trimmed_trim s
  · intro h
    rw [trim, h.trimChars_eq, String.ofList_toList]

/-- What stands before the first separator of a trimmed text begins as the text does. -/
theorem head?_trim_of_splitAtFirst {sep : Char} {s before after : String}
    (h : splitAtFirst sep (trim s) = some (before, after)) (hne : trim before ≠ "") :
    (trim before).toList.head? = (trim s).toList.head? := by
  obtain ⟨hparts, -⟩ := splitAtFirst_eq_some_iff.1 h
  obtain ⟨c, rest, hrest⟩ : ∃ c rest, before.toList = c :: rest := by
    refine List.exists_cons_of_ne_nil fun hnil => hne ?_
    rw [trim, hnil]
    rfl
  have hhead : (trim s).toList.head? = before.toList.head? := by
    rw [hparts, hrest]
    rfl
  rw [hhead, toList_trim]
  refine head?_trimChars ?_ ?_
  · rw [← hhead]
    exact (trimmed_trim s).head
  · rw [← toList_trim]
    simpa using hne

/-- Trimming adds no characters. -/
theorem mem_of_mem_trimChars (h : c ∈ trimChars cs) : c ∈ cs :=
  List.dropWhile_subset _ ((List.rdropWhile_prefix isBlank _).subset h)

/-! ## Lines -/

/-- **A line reads back**, with the lines after it. -/
theorem linesAfter_line {begun line rest : List Char} (hfeed : '\n' ∉ line)
    (hreturn : line.getLast? ≠ some '\r') :
    linesAfter begun (line ++ '\n' :: rest) =
      (begun.reverse ++ line) :: linesAfter [] rest := by
  induction line generalizing begun with
  | nil => simp [linesAfter]
  | cons c line ih =>
    have hc : c ≠ '\n' := fun h => hfeed (h ▸ List.mem_cons_self)
    have hline : '\n' ∉ line := fun h => hfeed (List.mem_cons_of_mem _ h)
    -- A carriage return is followed by more of the line, so it is not part of its end.
    have hstep : linesAfter begun (c :: (line ++ '\n' :: rest)) =
        linesAfter (c :: begun) (line ++ '\n' :: rest) := by
      cases line with
      | nil =>
        have hr : c ≠ '\r' := fun h => hreturn (by simp [h])
        simp [linesAfter, hr]
      | cons d line =>
        have hd : d ≠ '\n' := fun h => hline (h ▸ List.mem_cons_self)
        simp [linesAfter, hd]
    have hlast : line.getLast? ≠ some '\r' := by
      intro h
      cases line with
      | nil => cases h
      | cons d line => exact hreturn (by simpa using h)
    rw [List.cons_append, hstep, ih hline hlast]
    simp

/-- **Lines read back**, each with its end. -/
theorem lines_join_lines {texts : List String}
    (h : ∀ s ∈ texts, '\n' ∉ s.toList ∧ s.toList.getLast? ≠ some '\r') :
    lines (String.join (texts.map (· ++ "\n"))) = texts := by
  induction texts with
  | nil => rfl
  | cons s texts ih =>
    obtain ⟨⟨hfeed, hreturn⟩, hrest⟩ := List.forall_mem_cons.1 h
    have hchars : (String.join ((s :: texts).map (· ++ "\n"))).toList =
        s.toList ++ '\n' :: (String.join (texts.map (· ++ "\n"))).toList := by
      simp [String.join_cons]
    have hread := ih hrest
    rw [lines] at hread
    rw [lines, hchars, linesAfter_line hfeed hreturn, List.map_cons, hread, List.reverse_nil,
      List.nil_append, String.ofList_toList]

/-- **No line holds a line feed.** -/
theorem newline_not_mem_linesAfter {begun line : List Char} (hbegun : '\n' ∉ begun)
    (h : line ∈ linesAfter begun cs) : '\n' ∉ line := by
  fun_induction linesAfter begun cs with
  | case1 => cases h
  | case2 begun hne =>
    rw [List.mem_singleton.1 h]
    simpa using hbegun
  | case3 begun cs ih =>
    rcases List.mem_cons.1 h with rfl | h
    · simpa using hbegun
    · exact ih List.not_mem_nil h
  | case4 begun cs ih =>
    rcases List.mem_cons.1 h with rfl | h
    · simpa using hbegun
    · exact ih List.not_mem_nil h
  | case5 begun c cs _ hc ih =>
    refine ih ?_ h
    rw [List.mem_cons, not_or]
    exact ⟨fun h => hc h.symm, hbegun⟩

/-- No line has a line feed in it. -/
theorem newline_not_mem_lines {s line : String} (h : line ∈ lines s) : '\n' ∉ line.toList := by
  obtain ⟨cs, hcs, rfl⟩ := List.mem_map.1 h
  rw [String.toList_ofList]
  exact newline_not_mem_linesAfter List.not_mem_nil hcs

/-! ## Parts -/

section Parts

variable {sep : Char} {begun part rest : List Char}

/-- Without a separator there is one part. -/
theorem partsAfter_of_not_mem (h : sep ∉ part) :
    partsAfter sep begun part = [begun.reverse ++ part] := by
  induction part generalizing begun with
  | nil => simp [partsAfter]
  | cons c part ih =>
    obtain ⟨hc, hpart⟩ := not_or.1 (mt List.mem_cons.2 h)
    rw [partsAfter, if_neg (Ne.symm hc), ih hpart, List.reverse_cons, List.append_assoc]
    rfl

/-- **A part reads back**, with those after it. -/
theorem partsAfter_part (h : sep ∉ part) : partsAfter sep begun (part ++ sep :: rest) =
    (begun.reverse ++ part) :: partsAfter sep [] rest := by
  induction part generalizing begun with
  | nil => simp [partsAfter]
  | cons c part ih =>
    obtain ⟨hc, hpart⟩ := not_or.1 (mt List.mem_cons.2 h)
    rw [List.cons_append, partsAfter, if_neg (Ne.symm hc), ih hpart, List.reverse_cons,
      List.append_assoc]
    rfl

/-- No part holds the separator, and parts have only characters of the whole. -/
theorem of_mem_partsAfter {cs : List Char} (hbegun : sep ∉ begun)
    (h : part ∈ partsAfter sep begun cs) : sep ∉ part ∧ part ⊆ begun ++ cs := by
  induction cs generalizing begun with
  | nil =>
    rw [List.mem_singleton.1 h, List.append_nil]
    exact ⟨by simpa using hbegun, fun c hc => List.mem_reverse.1 hc⟩
  | cons c cs ih =>
    rw [partsAfter] at h
    split_ifs at h with hc
    · rcases List.mem_cons.1 h with rfl | h
      · exact ⟨by simpa using hbegun, fun d hd => List.mem_append_left _ (List.mem_reverse.1 hd)⟩
      · obtain ⟨hsep, hsubset⟩ := ih List.not_mem_nil h
        exact ⟨hsep, fun d hd => List.mem_append_right _ (List.mem_cons_of_mem c (hsubset hd))⟩
    · have hbegun' : sep ∉ c :: begun := by
        rw [List.mem_cons, not_or]
        exact ⟨Ne.symm hc, hbegun⟩
      obtain ⟨hsep, hsubset⟩ := ih hbegun' h
      refine ⟨hsep, fun d hd => ?_⟩
      have hd' := hsubset hd
      simp only [List.cons_append, List.mem_cons, List.mem_append] at hd' ⊢
      tauto

/-- No part has the separator in it, and each is made of characters of the text. -/
theorem of_mem_parts {s field : String} (h : field ∈ parts sep s) :
    sep ∉ field.toList ∧ field.toList ⊆ s.toList := by
  obtain ⟨part, hpart, rfl⟩ := List.mem_map.1 h
  rw [String.toList_ofList]
  exact of_mem_partsAfter List.not_mem_nil hpart

/-- Joined texts have the characters of the texts and of what stands between them. -/
theorem mem_join {between : String} {texts : List String} {c : Char}
    (h : c ∈ (join between texts).toList) : c ∈ between.toList ∨ ∃ s ∈ texts, c ∈ s.toList := by
  rw [join] at h
  induction texts with
  | nil => simp at h
  | cons s texts ih =>
    cases texts with
    | nil => exact .inr ⟨s, List.mem_singleton_self s, by simpa using h⟩
    | cons t texts =>
      rw [String.intercalate_cons_cons, String.toList_append, String.toList_append,
        List.mem_append, List.mem_append] at h
      rcases h with (h | h) | h
      · exact .inr ⟨s, List.mem_cons_self, h⟩
      · exact .inl h
      · exact (ih h).imp_right fun ⟨u, hu, hc⟩ => ⟨u, List.mem_cons_of_mem s hu, hc⟩

/-- **Parts that are joined read back.** -/
theorem parts_join {fields : List String} (hne : fields ≠ []) (h : ∀ s ∈ fields, sep ∉ s.toList) :
    parts sep (join (String.singleton sep) fields) = fields := by
  induction fields with
  | nil => exact absurd rfl hne
  | cons s fields ih =>
    obtain ⟨hs, hrest⟩ := List.forall_mem_cons.1 h
    cases fields with
    | nil => simp [join, parts, partsAfter_of_not_mem hs]
    | cons t fields =>
      have hchars : (join (String.singleton sep) (s :: t :: fields)).toList =
          s.toList ++ sep :: (join (String.singleton sep) (t :: fields)).toList := by
        simp [join, String.intercalate_cons_cons]
      have hread := ih (List.cons_ne_nil t fields) hrest
      rw [parts] at hread
      rw [parts, hchars, partsAfter_part hs, List.map_cons, hread, List.reverse_nil,
        List.nil_append, String.ofList_toList]

end Parts

end Text
end MusicCollections
