/-
# Definitions read back from their lines

Nothing is escaped in the definitions file, so a definition reads back from its line
only if nothing in it can be taken for something else: `Writable` says so.  What is read
from a line is writable (`writable_of_mem_parse`), and so is what passes the checks on
a name and an expression (`writable_of_nameFault?`).  A file of writable definitions holds
these and no others (`parse_render`).
-/

import MusicCollections.Proofs.Text
import MusicCollections.Store.Definitions

namespace MusicCollections

namespace Definitions

open Text

variable {d : Definition} {line : String}

/-- Nothing in the definition can be taken for something else in its line. -/
structure Writable (d : Definition) : Prop where
  name_trimmed : Trimmed d.1.toList
  name_ne_nil : d.1.toList ≠ []
  name_head : d.1.toList.head? ≠ some '#'
  equals_not_mem : '=' ∉ d.1.toList
  newline_not_mem_name : '\n' ∉ d.1.toList
  expression_trimmed : Trimmed d.2.toList
  expression_ne_nil : d.2.toList ≠ []
  newline_not_mem_expression : '\n' ∉ d.2.toList

/-- **The definition on a line** stands on the two sides of its first `=`. -/
theorem ofLine?_eq_some_iff : ofLine? line = some d ↔
    (trim line).toList.head? ≠ some '#' ∧ d.1 ≠ "" ∧ d.2 ≠ "" ∧
      ∃ before after, splitAtFirst '=' (trim line) = some (before, after) ∧
        trim before = d.1 ∧ trim after = d.2 := by
  obtain ⟨name, expression⟩ := d
  constructor
  · intro h
    simp only [ofLine?] at h
    split at h
    · cases h
    · rename_i hcomment
      split at h
      · cases h
      · rename_i before after hsplit
        split at h
        · cases h
        · rename_i hempty
          obtain ⟨rfl, rfl⟩ := Prod.mk.inj (Option.some.inj h)
          rw [not_or, String.isEmpty_iff, String.isEmpty_iff] at hempty
          exact ⟨fun hhead => hcomment (.inr hhead), hempty.1, hempty.2, before, after, hsplit,
            rfl, rfl⟩
  · rintro ⟨hcomment, hname, hexpression, before, after, hsplit, hbefore, hafter⟩
    have hne : trim line ≠ "" := by
      intro h
      rw [h] at hsplit
      cases hsplit
    simp only at hname hexpression hbefore hafter
    simp [ofLine?, hne, hcomment, hsplit, hbefore, hafter, hname, hexpression]

/-! ## What is read is writable -/

/-- The definition that a line holds can be written to one. -/
theorem writable_of_ofLine? (hline : '\n' ∉ line.toList) (h : ofLine? line = some d) :
    Writable d := by
  obtain ⟨hcomment, hname, hexpression, before, after, hsplit, hbefore, hafter⟩ :=
    ofLine?_eq_some_iff.1 h
  obtain ⟨hparts, hequals⟩ := splitAtFirst_eq_some_iff.1 hsplit
  have hd1 : d.1.toList = trimChars before.toList := by rw [← hbefore, toList_trim]
  have hd2 : d.2.toList = trimChars after.toList := by rw [← hafter, toList_trim]
  -- The name begins where the line does, so it does not begin with a `#` either.
  have hhead : d.1.toList.head? = (trim line).toList.head? := by
    rw [← hbefore]
    exact head?_trim_of_splitAtFirst hsplit (hbefore ▸ hname)
  have hnewline : '\n' ∉ before.toList ++ '=' :: after.toList := by
    intro hmem
    rw [← hparts, toList_trim] at hmem
    exact hline (mem_of_mem_trimChars hmem)
  exact {
    name_trimmed := hd1 ▸ trimmed_trimChars _
    name_ne_nil := by simpa using hname
    name_head := by
      rw [hhead]
      exact hcomment
    equals_not_mem := fun hmem => hequals (mem_of_mem_trimChars (hd1 ▸ hmem))
    newline_not_mem_name := fun hmem => hnewline
      (List.mem_append_left _ (mem_of_mem_trimChars (hd1 ▸ hmem)))
    expression_trimmed := hd2 ▸ trimmed_trimChars _
    expression_ne_nil := by simpa using hexpression
    newline_not_mem_expression := fun hmem => hnewline
      (List.mem_append_right _ (List.mem_cons_of_mem _ (mem_of_mem_trimChars (hd2 ▸ hmem)))) }

/-- **Every definition that is read from a file is writable.** -/
theorem writable_of_mem_parse {text : String} (h : d ∈ parse text) : Writable d := by
  obtain ⟨line, hline, hd⟩ := List.mem_filterMap.1 h
  exact writable_of_ofLine? (newline_not_mem_lines hline) hd

/-- **A definition that passes the checks is writable.** -/
theorem writable_of_nameFault? {name expression : String} {tree : Expression}
    (hname : nameFault? name = none) (hlines : hasLineBreak (trim expression) = false)
    (hparse : parseExpression (trim expression) = .ok tree) :
    Writable (name, trim expression) := by
  simp only [nameFault?] at hname
  split_ifs at hname with hempty hpadded hcomment hall hseparator
  have hnot : ∀ c, isSeparator c = true → c ∉ name.toList := by
    intro c hc hmem
    exact hseparator (List.any_eq_true.2 ⟨c, hmem, hc⟩)
  have htrim : trim name = name := (not_not.1 hpadded).symm
  have hne : trim expression ≠ "" := by
    intro h
    rw [h] at hparse
    cases hparse
  exact {
    name_trimmed := trim_eq_iff.1 htrim
    name_ne_nil := by simpa [htrim] using hempty
    name_head := hcomment
    equals_not_mem := hnot '=' (by decide)
    newline_not_mem_name := hnot '\n' (by decide)
    expression_trimmed := trimmed_trim expression
    expression_ne_nil := by simpa using hne
    newline_not_mem_expression := by
      intro hmem
      simp [hasLineBreak] at hlines
      exact (hlines _ hmem).1 rfl }

/-! ## Reading back -/

namespace Writable

/-- The line of a definition begins as its name does. -/
theorem head?_line (h : Writable d) :
    (d.1 ++ " = " ++ d.2).toList.head? = d.1.toList.head? := by
  rw [String.append_assoc, String.toList_append, List.head?_append_of_ne_nil _ h.name_ne_nil]

/-- The line of a definition has no white space around it. -/
theorem trimmed_line (h : Writable d) : Trimmed (d.1 ++ " = " ++ d.2).toList where
  head c hc := h.name_trimmed.head c (h.head?_line ▸ hc)
  last c hc := by
    rw [String.toList_append, List.getLast?_append_of_ne_nil _ h.expression_ne_nil] at hc
    exact h.expression_trimmed.last c hc

/-- **The line of a definition reads back**, its end aside. -/
theorem ofLine?_line (h : Writable d) : ofLine? (d.1 ++ " = " ++ d.2) = some d := by
  have hname : d.1 ≠ "" := by simpa using h.name_ne_nil
  have hexpression : d.2 ≠ "" := by simpa using h.expression_ne_nil
  have hsplit : splitAtFirst '=' (d.1 ++ " = " ++ d.2) = some (d.1 ++ " ", " " ++ d.2) := by
    refine splitAtFirst_eq_some_iff.2 ⟨by simp, ?_⟩
    simpa using h.equals_not_mem
  have hbefore : trim (d.1 ++ " ") = d.1 := by
    rw [trim, String.toList_append]
    exact (congrArg String.ofList (trimChars_append_singleton (by decide) d.1.toList)).trans
      (trim_eq_iff.2 h.name_trimmed)
  have hafter : trim (" " ++ d.2) = d.2 := by
    rw [trim, String.toList_append]
    exact (congrArg String.ofList (trimChars_cons (by decide) d.2.toList)).trans
      (trim_eq_iff.2 h.expression_trimmed)
  rw [ofLine?_eq_some_iff, trim_eq_iff.2 h.trimmed_line, h.head?_line]
  exact ⟨h.name_head, hname, hexpression, _, _, hsplit, hbefore, hafter⟩

end Writable

/-- The lines of a file are those of its definitions. -/
theorem lines_render {definitions : List Definition} (h : ∀ d ∈ definitions, Writable d) :
    lines (render definitions) = definitions.map fun d => d.1 ++ " = " ++ d.2 := by
  have hlines : render definitions =
      String.join ((definitions.map fun d => d.1 ++ " = " ++ d.2).map (· ++ "\n")) := by
    rw [List.map_map]
    rfl
  rw [hlines, lines_join_lines]
  rintro _ hline
  obtain ⟨d, hd, rfl⟩ := List.mem_map.1 hline
  have hwritable : Writable d := h d hd
  constructor
  · simp [hwritable.newline_not_mem_name, hwritable.newline_not_mem_expression]
  · intro hlast
    exact absurd (hwritable.trimmed_line.last '\r' hlast) (by decide)

/-- **A file of writable definitions holds these definitions**, in their order. -/
theorem parse_render {definitions : List Definition} (h : ∀ d ∈ definitions, Writable d) :
    parse (render definitions) = definitions := by
  have hread : ∀ d ∈ definitions, (ofLine? ∘ fun d => d.1 ++ " = " ++ d.2) d = some d := by
    intro d hd
    rw [Function.comp_apply, (h d hd).ofLine?_line]
  rw [parse, lines_render h, List.filterMap_map, List.filterMap_congr hread, List.filterMap_some]

end Definitions
end MusicCollections
