import AciX.Sql.Rows

/-!
# A cursor over a table that grows

A cursor that is declared without options is dynamic: rows inserted behind its position are met if
they satisfy its condition. The loop over it comes to an end if the rows inserted do not, and then
it has been executed once for each row that did at the start (`cursor_eq`).
-/

namespace AciX.Sql

open List

variable {α : Type*} (p : α → Bool) (body : α → List α)

/-- The table after the loop, from the position of the cursor on. `body r` are the rows that the
loop inserts when it has fetched `r`. `none` if the loop has not come to its end. -/
def cursor : ℕ → List α → Option (List α)
  | 0, _ => none
  | _ + 1, [] => some []
  | fuel + 1, r :: ahead => (cursor fuel (if p r then ahead ++ body r else ahead)).map (r :: ·)

variable {p body}

theorem cursor_eq (h : ∀ r, p r = true → ∀ x ∈ body r, p x = false) :
    ∀ {fuel : ℕ} {rows : List α}, rows.length + ((rows.filter p).flatMap body).length < fuel →
      cursor p body fuel rows = some (rows ++ (rows.filter p).flatMap body)
  | 0, _, hfuel => absurd hfuel (Nat.not_lt_zero _)
  | _ + 1, [], _ => rfl
  | fuel + 1, r :: ahead, hfuel => by
    rw [length_cons] at hfuel
    by_cases hr : p r = true
    · have hbody : (body r).filter p = [] :=
        filter_eq_nil_iff.2 fun x hx => by rw [h r hr x hx]; exact Bool.false_ne_true
      have hfilter : (ahead ++ body r).filter p = ahead.filter p := by
        rw [filter_append, hbody, append_nil]
      rw [filter_cons_of_pos hr, flatMap_cons] at hfuel ⊢
      rw [length_append] at hfuel
      have hlength : (ahead ++ body r).length +
          (((ahead ++ body r).filter p).flatMap body).length < fuel := by
        rw [hfilter, length_append]
        omega
      rw [cursor, if_pos hr, cursor_eq h hlength, hfilter, Option.map_some, append_assoc,
        cons_append]
    · rw [filter_cons_of_neg hr] at hfuel ⊢
      rw [cursor, if_neg hr, cursor_eq h (by omega), Option.map_some, cons_append]

end AciX.Sql
