import ApiContract.Http
import ApiContract.Proofs.Text

/-!
# Routes are read back

A route is written as its method, a blank and its path, in policies and in reports, and it is read
from policies that people write. What is read should be what is reported.

## Main result

`Route.routes_read_back`: from every text that is read as a route, the path is not empty and neither
begins nor ends with a blank, and the route is read again from what it is written as.

## Proof

Reading takes what stands in front of the first blank for the method, and methods have no blanks, so
what is written is cut where it was put together (`takeWhile_display`). The path is trimmed when it
is read: only a path that is trimmed and not empty comes back (`Route.ofText?_display_iff`), and
every path that was read is of that kind, since the text was trimmed before it was cut
(`path_of_ofText?_eq_some`).

## Blanks

Blanks are all characters that count as white space, not only those of the keyboard. A text may have
them around the method and the path and several between the two; within the path they stay as they
are. The example at the end has an ideographic space, a no-break space and a line separator.
-/

namespace ApiContract

theorem HttpMethod.ofName?_display (method : HttpMethod) :
    ofName? method.display = some method := by
  cases method <;> decide

/-- A method has no blank in its name. -/
theorem HttpMethod.isBlank_of_mem_display {method : HttpMethod} :
    ∀ c ∈ method.display.toList, Text.isBlank c = false := by
  have hall : method.display.toList.all (fun c ↦ !Text.isBlank c) = true := by
    cases method <;> decide +kernel
  exact fun c hc ↦ by simpa using List.all_eq_true.1 hall c hc

theorem HttpMethod.toList_display_ne_nil (method : HttpMethod) : method.display.toList ≠ [] := by
  cases method <;> decide +kernel

namespace Route

/-- The characters of a route. -/
theorem toList_display (r : Route) :
    r.display.toList = r.method.display.toList ++ ' ' :: r.path.toList := by
  rw [display, String.toList_append, String.toList_append, List.append_assoc]
  rfl

/-- What stands in front of a route's first blank is its method. -/
theorem takeWhile_display {p : Char → Bool} (hword : ∀ c, Text.isBlank c = false → p c = true)
    (hblank : p ' ' = false) (r : Route) :
    r.display.toList.takeWhile p = r.method.display.toList := by
  have hmethod : ∀ c ∈ r.method.display.toList, p c = true := fun c hc ↦
    hword c (HttpMethod.isBlank_of_mem_display c hc)
  rw [toList_display, List.takeWhile_append_of_pos hmethod,
    List.takeWhile_cons_of_neg (Bool.eq_false_iff.1 hblank), List.append_nil]

/-- Routes that are written alike are the same. -/
theorem display_injective : Function.Injective Route.display := by
  intro r s h
  have hfirst (r : Route) : r.display.toList.takeWhile (· ≠ ' ') = r.method.display.toList := by
    refine takeWhile_display (fun c hc ↦ decide_eq_true ?_) (by decide) r
    rintro rfl
    exact absurd hc (by decide)
  have hmethod : r.method = s.method := by
    have hdisplay : r.method.display = s.method.display := by
      rw [← String.toList_inj, ← hfirst, ← hfirst, h]
    rw [← Option.some_inj, ← HttpMethod.ofName?_display, hdisplay, HttpMethod.ofName?_display]
  have hpath : r.path = s.path := by
    have hboth := congrArg String.toList h
    rw [toList_display, toList_display, hmethod, List.append_cancel_left_eq,
      List.cons.injEq] at hboth
    exact String.toList_injective hboth.2
  cases r
  cases s
  exact congrArg₂ Route.mk hmethod hpath

/-- A text is read by cutting it at its first blank. -/
theorem ofText?_eq_some_iff {s : String} {r : Route} :
    ofText? s = some r ↔
      ∃ blank path, (Text.trim s).toList.dropWhile (fun c ↦ !Text.isBlank c) = blank :: path ∧
        HttpMethod.ofName? (String.ofList
          ((Text.trim s).toList.takeWhile fun c ↦ !Text.isBlank c)) = some r.method ∧
        r.path = Text.trim (String.ofList path) := by
  rw [ofText?]
  constructor
  · intro h
    split at h
    · exact absurd h nofun
    · next blank path hcut =>
      obtain ⟨method, hmethod, rfl⟩ := Option.map_eq_some_iff.1 h
      exact ⟨blank, path, hcut, hmethod, rfl⟩
  · rintro ⟨blank, path, hcut, hmethod, hpath⟩
    rw [hcut]
    dsimp only
    rw [hmethod, Option.map_some, ← hpath]

/-- A path that was read is trimmed and not empty, since the text was trimmed before it was cut. -/
theorem path_of_ofText?_eq_some {s : String} {r : Route} (h : ofText? s = some r) :
    r.path ≠ "" ∧ Text.IsTrimmed r.path := by
  obtain ⟨blank, path, hcut, -, hpath⟩ := ofText?_eq_some_iff.1 h
  refine ⟨fun hempty ↦ ?_, hpath ▸ Text.isTrimmed_trim _⟩
  -- if nothing but blanks followed the first blank, the trimmed text would end with one
  have hfirst : Text.isBlank blank = true := by
    have hhead : ((Text.trim s).toList.dropWhile fun c ↦ !Text.isBlank c).head? = some blank := by
      rw [hcut, List.head?_cons]
    have hnot := Text.not_of_head?_dropWhile hhead
    rwa [Bool.not_eq_false'] at hnot
  have hrest : ∀ c ∈ path, Text.isBlank c = true := by
    have htrim := Text.isBlank_of_trim_eq_empty (hpath.symm.trans hempty)
    rwa [String.toList_ofList] at htrim
  have hall : ∀ c ∈ blank :: path, Text.isBlank c = true :=
    List.forall_mem_cons.2 ⟨hfirst, hrest⟩
  have hend : (Text.trim s).toList.getLast? = (blank :: path).getLast? := by
    rw [← List.takeWhile_append_dropWhile (p := fun c ↦ !Text.isBlank c)
      (l := (Text.trim s).toList), hcut, List.getLast?_append_of_ne_nil _ (List.cons_ne_nil _ _)]
  have hlast : (blank :: path).getLast (List.cons_ne_nil _ _) ∈ (Text.trim s).toList.getLast? := by
    rw [hend, List.getLast?_eq_getLast_of_ne_nil]
    rfl
  have hblank := hall _ (List.getLast_mem (List.cons_ne_nil _ _))
  rw [(Text.isTrimmed_trim s).last _ hlast] at hblank
  exact absurd hblank Bool.false_ne_true

/-- A route with a trimmed path is trimmed. -/
theorem isTrimmed_display {r : Route} (hne : r.path ≠ "") (h : Text.IsTrimmed r.path) :
    Text.IsTrimmed r.display := by
  constructor
  · intro c hc
    obtain ⟨first, rest, hmethod⟩ := List.exists_cons_of_ne_nil r.method.toList_display_ne_nil
    rw [toList_display, hmethod] at hc
    obtain rfl : first = c := Option.some.inj hc
    exact HttpMethod.isBlank_of_mem_display first (hmethod ▸ List.mem_cons_self)
  · have hpath : r.path.toList ≠ [] := mt String.toList_eq_nil_iff.1 hne
    rw [toList_display, List.getLast?_append_of_ne_nil _ (List.cons_ne_nil _ _),
      ← List.singleton_append, List.getLast?_append_of_ne_nil _ hpath]
    exact h.last

/-- **A route is read back exactly if its path is trimmed and not empty.** -/
theorem ofText?_display_iff {r : Route} :
    ofText? r.display = some r ↔ r.path ≠ "" ∧ Text.IsTrimmed r.path := by
  refine ⟨path_of_ofText?_eq_some, fun ⟨hne, htrimmed⟩ ↦ ofText?_eq_some_iff.2 ?_⟩
  have hmethod : r.display.toList.takeWhile (fun c ↦ !Text.isBlank c) =
      r.method.display.toList :=
    takeWhile_display (fun c hc ↦ by rw [hc]; rfl) (by decide) r
  have hrest : r.display.toList.dropWhile (fun c ↦ !Text.isBlank c) = ' ' :: r.path.toList := by
    rw [← List.append_cancel_left_eq (r.display.toList.takeWhile fun c ↦ !Text.isBlank c),
      List.takeWhile_append_dropWhile, hmethod, toList_display]
  rw [(isTrimmed_display hne htrimmed).trim_eq, hmethod, String.ofList_toList]
  refine ⟨' ', r.path.toList, hrest, r.method.ofName?_display, ?_⟩
  rw [String.ofList_toList, htrimmed.trim_eq]

/-- **Routes are read back as they were read.** The path of a route that was read is not empty and
neither begins nor ends with a blank, and the route is read again from what it is written as. -/
theorem routes_read_back {s : String} {r : Route} (h : ofText? s = some r) :
    r.path ≠ "" ∧
      ((∀ c ∈ r.path.toList.head?, Text.isBlank c = false) ∧
        ∀ c ∈ r.path.toList.getLast?, Text.isBlank c = false) ∧
      ofText? r.display = some r := by
  obtain ⟨hne, htrimmed⟩ := path_of_ofText?_eq_some h
  exact ⟨hne, ⟨htrimmed.head, htrimmed.last⟩, ofText?_display_iff.2 ⟨hne, htrimmed⟩⟩

/-- A method in mixed case, blanks of several kinds around the parts, and one within the path. -/
theorem routes_read_back_uploadRoute :
    ofText? "\u3000pOsT \u00a0/v1/files/by name\u2028\t" = some ⟨.post, "/v1/files/by name"⟩ ∧
      Route.display ⟨.post, "/v1/files/by name"⟩ = "POST /v1/files/by name" ∧
      ofText? "POST /v1/files/by name" = some ⟨.post, "/v1/files/by name"⟩ := by
  have hread : ofText? "\u3000pOsT \u00a0/v1/files/by name\u2028\t" =
      some ⟨.post, "/v1/files/by name"⟩ := by
    decide +kernel
  have hdisplay : Route.display ⟨.post, "/v1/files/by name"⟩ = "POST /v1/files/by name" := by
    decide +kernel
  have hback := (routes_read_back hread).2.2
  rw [hdisplay] at hback
  exact ⟨hread, hdisplay, hback⟩

end Route

end ApiContract
