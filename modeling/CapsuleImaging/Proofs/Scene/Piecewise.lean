import CapsuleImaging.Proofs.Scene.Halving

/-!
# The value of an attribute, piece by piece

`Piecewise` says what an attribute's value is in each case that there is for a time: without one, at
a sample, between two neighbours, on either side of all samples, or at none. Some cases share a
border, where both give the same; and there is no time without a case. So for chronological samples
this is the value that is read (`resolve_piecewise`).

The samples are divided where the time stands among them. What is read depends on the last that has
been reached and the first that has not, and three lemmas say what that is: `sampled?_before`,
`sampled?_behind` and `sampled?_between`.
-/

namespace CapsuleImaging

/-- Only two doubles and two vectors blend; of other values the first holds. -/
theorem Value.lerp_cases (v w : Value) (s : Float) :
    (∃ x y, v = .double x ∧ w = .double y) ∨ (∃ x y, v = .vec3 x ∧ w = .vec3 y) ∨
      v.lerp w s = v := by
  cases v <;> cases w <;> simp [lerp]

namespace Attribute

/-- **The cases of an attribute's value.** -/
inductive Piecewise (a : Attribute) : TimeCode → Option Value → Prop
  /-- Without a time only the default is read. -/
  | untimed : Piecewise a .default a.fallback
  /-- Without samples the default holds at every time. -/
  | unsampled {time : Float} (hnone : a.samples = []) : Piecewise a (.at time) a.fallback
  /-- Before the first sample that sample holds, and it holds at what is no number. -/
  | before {time : Float} {first : Float × Value} (hfirst : a.samples.head? = some first)
      (htime : time < first.1 ∨ time.isNaN) : Piecewise a (.at time) (some first.2)
  /-- From the last sample on that sample holds. -/
  | behind {time : Float} {last : Float × Value} (hlast : a.samples.getLast? = some last)
      (htime : last.1 ≤ time) : Piecewise a (.at time) (some last.2)
  /-- At the time of a sample that sample holds, as it was written. -/
  | hit {time : Float} {s : Float × Value} (hs : s ∈ a.samples) (htime : s.1 == time) :
      Piecewise a (.at time) (some s.2)
  /-- Between two neighbours their values blend. -/
  | between {time : Float} {front back : List (Float × Value)} {s u : Float × Value}
      (hneighbours : a.samples = front ++ s :: u :: back) (hs : s.1 < time) (hu : time < u.1) :
      Piecewise a (.at time) (some (s.2.lerp u.2 ((time - s.1) / (u.1 - s.1))))

variable {a : Attribute} {front back : List (Float × Value)} {s u first last : Float × Value}
  {time : Float}

namespace Chronological

theorem lt_behind (h : Chronological (front ++ s :: back)) (hu : u ∈ back) : s.1 < u.1 :=
  List.rel_of_pairwise_cons (List.pairwise_append.1 h.ascending).2.1 hu

/-- What stands before a sample that has been reached has been reached. -/
theorem reached (h : Chronological (front ++ s :: back)) (hs : s.1 ≤ time) :
    ∀ x ∈ front ++ [s], x.1 ≤ time := by
  intro x hx
  rcases List.mem_append.1 hx with hfront | hself
  · have hlt := h.lt_of_append hfront List.mem_cons_self
    exact Moment.le_of_lt (Moment.lt_of_lt_of_le hlt hs)
  · obtain rfl := List.mem_singleton.1 hself
    exact hs

/-- What stands behind a sample that has not been reached has not been reached. -/
theorem ahead (h : Chronological (front ++ s :: back)) (hs : ¬ s.1 ≤ time) :
    ∀ x ∈ s :: back, ¬ x.1 ≤ time := by
  intro x hx
  rcases List.mem_cons.1 hx with rfl | hback
  · exact hs
  · exact fun hle => hs (Moment.le_of_lt (Moment.lt_of_lt_of_le (h.lt_behind hback) hle))

end Chronological

theorem sampled?_before (h : Chronological (first :: back)) (hfirst : ¬ first.1 ≤ time) :
    sampled? (first :: back) time = some first.2 := by
  rw [← List.nil_append (first :: back)] at h ⊢
  rw [sampled?_append (fun x hx => absurd hx List.not_mem_nil) (h.ahead hfirst)]
  rfl

theorem sampled?_behind (h : Chronological (front ++ [last])) (hlast : last.1 ≤ time) :
    sampled? (front ++ [last]) time = some last.2 := by
  rw [← List.append_nil (front ++ [last]),
    sampled?_append (h.reached hlast) fun x hx => absurd hx List.not_mem_nil, between?,
    List.getLast?_concat]
  rfl

theorem sampled?_between (h : Chronological (front ++ s :: u :: back)) (hs : s.1 ≤ time)
    (hu : ¬ u.1 ≤ time) : sampled? (front ++ s :: u :: back) time =
      some (if s.1 == time then s.2 else s.2.lerp u.2 ((time - s.1) / (u.1 - s.1))) := by
  have hsplit : front ++ s :: u :: back = (front ++ [s]) ++ u :: back := by
    rw [List.append_assoc, List.singleton_append]
  have hahead : ∀ x ∈ u :: back, ¬ x.1 ≤ time := by
    rw [hsplit] at h
    exact h.ahead hu
  rw [hsplit, sampled?_append (h.reached hs) hahead, between?, List.getLast?_concat,
    List.head?_cons]

/-- **At the time of a sample its value is read.** -/
theorem sampled?_hit {samples : List (Float × Value)} (h : Chronological samples)
    (hs : s ∈ samples) (htime : s.1 == time) : sampled? samples time = some s.2 := by
  obtain ⟨front, back, rfl⟩ := List.append_of_mem hs
  cases back with
  | nil => exact sampled?_behind h (Moment.le_of_beq htime)
  | cons u back =>
    have hlt : s.1 < u.1 := h.lt_behind List.mem_cons_self
    -- the next sample is later than the time, or this one would be earlier
    have hu : ¬ u.1 ≤ time := fun hle =>
      Moment.not_beq_of_lt (Moment.lt_of_lt_of_le hlt hle) htime
    rw [sampled?_between h (Moment.le_of_beq htime) hu, if_pos htime]

/-- **Each case gives what is read.** -/
theorem Piecewise.resolve_eq {code : TimeCode} {value : Option Value} (h : Chronological a.samples)
    (hcase : a.Piecewise code value) : a.resolve code = value := by
  cases hcase with
  | untimed => rfl
  | unsampled hnone =>
    rw [resolve, hnone, sampled?_nil, Option.none_or]
  | @before time first hfirst htime =>
    obtain ⟨back, hsamples⟩ := List.head?_eq_some_iff.1 hfirst
    have hnot : ¬ first.1 ≤ time := fun hle =>
      htime.elim (fun hlt => Moment.not_le_of_lt hlt hle) fun hnan =>
        (Moment.isNumber_of_le hle).2 hnan
    rw [hsamples] at h
    rw [resolve, hsamples, sampled?_before h hnot, Option.some_or]
  | behind hlast htime =>
    obtain ⟨front, hsamples⟩ := List.getLast?_eq_some_iff.1 hlast
    rw [hsamples] at h
    rw [resolve, hsamples, sampled?_behind h htime, Option.some_or]
  | hit hs htime => rw [resolve, sampled?_hit h hs htime, Option.some_or]
  | between hneighbours hs hu =>
    rw [hneighbours] at h
    rw [resolve, hneighbours, sampled?_between h (Moment.le_of_lt hs) (Moment.not_le_of_lt hu),
      if_neg (Moment.not_beq_of_lt hs), Option.some_or]

/-- **Every time has a case.** -/
theorem exists_piecewise (h : Chronological a.samples) (code : TimeCode) :
    ∃ value, a.Piecewise code value := by
  cases code with
  | default => exact ⟨_, .untimed⟩
  | «at» time =>
    obtain ⟨front, back, hsamples, hfront, hback⟩ := h.exists_reached time
    obtain rfl | ⟨earlier, last, rfl⟩ := front.eq_nil_or_concat
    · cases back with
      | nil => exact ⟨_, .unsampled hsamples⟩
      | cons first rest =>
        have hfirst : ¬ first.1.isNaN := h.number first (by simp [hsamples])
        have htime : time < first.1 ∨ time.isNaN := by
          by_cases hnan : time.isNaN
          · exact Or.inr hnan
          · exact Or.inl (Moment.lt_of_not_le hnan hfirst (hback first List.mem_cons_self))
        exact ⟨_, .before (by rw [hsamples]; rfl) htime⟩
    · rw [List.concat_eq_append] at hsamples hfront
      have hlast : last.1 ≤ time := hfront last (by simp)
      cases back with
      | nil => exact ⟨_, .behind (by simp [hsamples]) hlast⟩
      | cons next rest =>
        by_cases hsame : last.1 == time
        · exact ⟨_, .hit (by simp [hsamples]) hsame⟩
        · have hnext : ¬ next.1.isNaN := h.number next (by simp [hsamples])
          have hlt := Moment.lt_of_not_le (Moment.isNumber_of_le hlast).2 hnext
            (hback next List.mem_cons_self)
          rw [List.append_assoc, List.singleton_append] at hsamples
          exact ⟨_, .between hsamples (Moment.lt_of_le_of_not_beq hlast hsame) hlt⟩

/-- **What is read is what the cases say.** Chronological samples give, at every time code and also
by a run along them, the value of the case that the time is in; and where two neighbours blend, that
is the earlier value itself unless both are doubles or both vectors. -/
theorem resolve_piecewise (a : Attribute) (h : Chronological a.samples) (code : TimeCode) :
    (∀ value, a.resolve code = value ↔ a.Piecewise code value) ∧
      a.resolveByScan code = a.resolve code ∧
      ∀ (v w : Value) (s : Float), (∃ x y, v = .double x ∧ w = .double y) ∨
        (∃ x y, v = .vec3 x ∧ w = .vec3 y) ∨ v.lerp w s = v := by
  refine ⟨fun value => ⟨?_, fun hcase => hcase.resolve_eq h⟩, resolveByScan_eq h code,
    Value.lerp_cases⟩
  rintro rfl
  obtain ⟨value, hcase⟩ := exists_piecewise h code
  rwa [hcase.resolve_eq h]

/-- Two doubles with a token behind them, the first at a zero. -/
def mixed : Attribute :=
  ⟨none, [(-0.0, .double 1), (10, .double 3), (20, .token "tall")], false⟩

theorem resolve_piecewise_mixed :
    Chronological mixed.samples ∧ mixed.Piecewise (.at 0) (some (.double 1)) ∧
      mixed.Piecewise (.at 5) (some (.double 2)) ∧ mixed.Piecewise (.at 15) (some (.double 3)) ∧
      mixed.Piecewise (.at (0 / 0)) (some (.double 1)) := by
  have h : Chronological mixed.samples := by decide +kernel
  refine ⟨h, ?_, ?_, ?_, ?_⟩
  · exact ((resolve_piecewise mixed h _).1 _).1 (by decide +kernel)
  · exact ((resolve_piecewise mixed h _).1 _).1 (by decide +kernel)
  · exact ((resolve_piecewise mixed h _).1 _).1 (by decide +kernel)
  · exact ((resolve_piecewise mixed h _).1 _).1 (by decide +kernel)

end Attribute

end CapsuleImaging
