import PointAndClick.Proofs.Play.Waits

/-!
# Every action is answered

What a user asks for has the lock, waits for it or is done (`Machine.Owes`). The steps up to its end
are those that are left of what runs and of the calls before it in the queue (`Machine.distance`);
what is asked for meanwhile comes later and adds none. Each time that what runs goes on after a
pause, there are fewer of them, so whoever awaits an answer gets one (`Machine.await_answers`).
-/

set_option autoImplicit false

namespace PointAndClick

namespace Machine

variable {m m' m₁ m₂ m₃ : Machine} {asked : List Request} {job : Nat}

/-- A user's request is done, or has the lock, or waits for it. -/
def Owes (m : Machine) (job : Nat) : Prop :=
  (m.result? job).isSome ∨ m.running.map (·.owner) = some (.user job) ∨
    ∃ r ∈ m.queue, r.owner = .user job

/-- The steps that some requests take up to the end of a user's request. -/
def ahead (s : Session) (job : Nat) : List Request → Nat
  | [] => 0
  | r :: rest => stepsOf s r.work + if r.owner = .user job then 0 else ahead s job rest

/-- The steps up to the end of a user's request. -/
def distance (m : Machine) (job : Nat) : Nat :=
  m.stepsLeft +
    if m.running.map (·.owner) = some (.user job) then 0 else ahead m.session job m.queue

/-- What runs and does not wait for a time goes on with a turn of the present instant. -/
def Resumes (m : Machine) : Prop :=
  ∀ r, m.running = some r → r.wake = none → .resume ∈ m.session.turns

/-! ## One step -/

theorem ahead_congr {s s' : Session} (h : s'.navigation.scenes = s.navigation.scenes)
    (requests : List Request) : ahead s' job requests = ahead s job requests := by
  induction requests with
  | nil => rfl
  | cons r rest ih =>
      unfold ahead
      rw [ih, stepsOf_congr h]

/-- What comes behind a request adds nothing to what is ahead of its end. -/
theorem ahead_append {s : Session} {requests : List Request}
    (h : ∃ r ∈ requests, r.owner = .user job) (more : List Request) :
    ahead s job (requests ++ more) = ahead s job requests := by
  induction requests with
  | nil =>
      obtain ⟨r, hr, -⟩ := h
      nomatch hr
  | cons r rest ih =>
      rw [List.cons_append]
      unfold ahead
      split
      · rfl
      · rename_i hother
        rw [ih]
        obtain ⟨r', hr', howner⟩ := h
        rcases List.mem_cons.mp hr' with rfl | hrest
        · exact absurd howner hother
        · exact ⟨r', hrest, howner⟩

theorem Hands.resumes (h : Hands m asked m') (hresumes : m.Resumes) : m'.Resumes := by
  intro r hrunning hwake
  have hspends {owner : Owner} {steps : Nat} {m₁ : Machine} (h : Spends owner steps m₁ m') :
      .resume ∈ m'.session.turns := by
    cases h.outcome with
    | ended hnone => rw [hnone] at hrunning; nomatch hrunning
    | paused hsome _ _ hsoon =>
        rw [hsome] at hrunning
        cases hrunning
        exact hsoon hwake
  cases h with
  | leaves halike hsoon =>
      have hbefore : m.running = some r := halike.running.symm.trans hrunning
      exact hsoon (by rw [hbefore]; rfl) (hresumes r hbefore hwake)
  | goesOn _ _ h => exact hspends h
  | starts _ _ _ h => exact hspends h

theorem Hands.told (h : Hands m asked m') (hdone : (m.result? job).isSome) :
    (m'.result? job).isSome := by
  have hspends {owner : Owner} {steps : Nat} {m₁ : Machine} (hresults : m₁.results = m.results)
      (h : Spends owner steps m₁ m') : (m'.result? job).isSome := by
    obtain ⟨more, hmore⟩ := h.results
    exact result?_append (hresults ▸ hmore) hdone
  cases h with
  | leaves halike =>
      have hresults : m'.results = m.results ++ [] := halike.results.trans (List.append_nil _).symm
      exact result?_append hresults hdone
  | goesOn _ halike h => exact hspends halike.results h
  | starts _ _ halike h => exact hspends halike.results h

/-- Whoever has the lock keeps it or is done. -/
theorem Spends.owes {owner : Owner} {steps : Nat} (h : Spends owner steps m₁ m')
    (howner : owner = .user job) :
    (m'.result? job).isSome ∨ m'.running.map (·.owner) = some (.user job) := by
  cases h.outcome with
  | ended _ htold => exact .inl (htold job howner)
  | paused hrunning hsame =>
      refine .inr ?_
      rw [hrunning]
      exact congrArg some (hsame.trans howner)

/-- No request is forgotten. -/
theorem Hands.owes (h : Hands m asked m')
    (howes : m.Owes job ∨ ∃ r ∈ asked, r.owner = .user job) : m'.Owes job := by
  by_cases hdone : (m.result? job).isSome
  · exact .inl (h.told hdone)
  have howes : m.running.map (·.owner) = some (.user job) ∨
      ∃ r ∈ m.queue ++ asked, r.owner = .user job := by
    rcases howes with (hdone' | hrunning | ⟨r, hr, howner⟩) | ⟨r, hr, howner⟩
    · exact absurd hdone' hdone
    · exact .inl hrunning
    · exact .inr ⟨r, List.mem_append_left _ hr, howner⟩
    · exact .inr ⟨r, List.mem_append_right _ hr, howner⟩
  cases h with
  | leaves halike =>
      rcases howes with hrunning | hwaits
      · exact .inr (.inl (halike.running ▸ hrunning))
      · exact .inr (.inr (halike.queue ▸ hwaits))
  | @goesOn m₁ r hrunning halike h hasked =>
      rcases howes with hholds | hwaits
      · rw [hrunning] at hholds
        exact (h.owes (Option.some.inj hholds)).imp id .inl
      · rw [hasked, List.append_nil] at hwaits
        exact .inr (.inr (h.queue.trans halike.queue ▸ hwaits))
  | @starts m₁ r rest hfirst hfree halike h =>
      rw [hfree, hfirst] at howes
      obtain ⟨r', hr', howner⟩ := howes.resolve_left nofun
      rcases List.mem_cons.mp hr' with rfl | hrest
      · exact (h.owes howner).imp id .inl
      · exact .inr (.inr ⟨r', h.queue.trans halike.queue ▸ hrest, howner⟩)

/-- A step brings the end of a request nearer, or leaves what runs as it is. -/
structure Nears (job : Nat) (m m' : Machine) : Prop where
  told : (m.result? job).isSome → (m'.result? job).isSome
  nearer : (m'.result? job).isSome ∨ m'.distance job < m.distance job ∨
    m'.distance job ≤ m.distance job ∧ m'.running = m.running

theorem Nears.refl (m : Machine) : Nears job m m := ⟨id, .inr (.inr ⟨Nat.le_refl _, rfl⟩)⟩

theorem Nears.trans (h : Nears job m₁ m₂) (h' : Nears job m₂ m₃) : Nears job m₁ m₃ := by
  refine ⟨fun hdone => h'.told (h.told hdone), ?_⟩
  rcases h.nearer with hdone | hless | ⟨hle, hsame⟩
  · exact .inl (h'.told hdone)
  · rcases h'.nearer with hdone' | hless' | ⟨hle', -⟩
    · exact .inl hdone'
    · exact .inr (.inl (Nat.lt_trans hless' hless))
    · exact .inr (.inl (Nat.lt_of_le_of_lt hle' hless))
  · rcases h'.nearer with hdone' | hless' | ⟨hle', hsame'⟩
    · exact .inl hdone'
    · exact .inr (.inl (Nat.lt_of_lt_of_le hless' hle))
    · exact .inr (.inr ⟨Nat.le_trans hle' hle, hsame'.trans hsame⟩)

/-- Work for a call brings the end of a request nearer that comes with it or after it. -/
theorem Spends.distance_lt {owner : Owner} {steps : Nat} (h : Spends owner steps m₁ m')
    (hopen : ¬(m'.result? job).isSome) (left : Nat)
    (hahead : owner ≠ .user job → ahead m₁.session job m₁.queue ≤ left) :
    m'.distance job < steps + if owner = .user job then 0 else left := by
  have hleft := h.left
  have hqueue : ahead m'.session job m'.queue = ahead m₁.session job m₁.queue := by
    rw [h.queue, ahead_congr h.eases.scenes]
  unfold distance
  rw [hqueue]
  cases h.outcome with
  | ended hnone htold =>
      have hother : owner ≠ .user job := fun howner => hopen (htold job howner)
      have hle := hahead hother
      rw [if_neg hother, hnone, if_neg nofun]
      omega
  | @paused r hrunning howner =>
      rw [hrunning, Option.map_some, howner]
      by_cases hjob : owner = .user job
      · rw [if_pos (congrArg some hjob), if_pos hjob]
        exact hleft
      · have hle := hahead hjob
        rw [if_neg fun heq => hjob (Option.some.inj heq), if_neg hjob]
        omega

theorem Hands.nears (h : Hands m asked m') (howes : m.Owes job) : Nears job m m' := by
  refine ⟨h.told, ?_⟩
  by_cases hdone : (m'.result? job).isSome
  · exact .inl hdone
  have howes := howes.resolve_left fun hsome => hdone (h.told hsome)
  refine .inr ?_
  cases h with
  | leaves halike =>
      refine .inr ⟨Nat.le_of_eq ?_, halike.running⟩
      unfold distance
      rw [halike.left, halike.running, halike.queue, ahead_congr halike.scenes]
      dsimp only
      split
      · rfl
      · rename_i hother
        rw [ahead_append (howes.resolve_left hother)]
        rfl
  | @goesOn m₁ r hrunning halike h hasked =>
      refine .inl ?_
      have hless := h.distance_lt hdone (ahead m.session job m.queue) fun _ => by
        rw [halike.queue, ahead_congr halike.scenes]
      have howner : m.running.map (·.owner) = some (.user job) ↔ r.owner = .user job := by
        rw [hrunning]
        exact Option.some_inj
      unfold distance at hless ⊢
      rw [if_congr howner rfl rfl]
      exact hless
  | @starts m₁ r rest hfirst hfree halike h =>
      refine .inl ?_
      rw [hfree] at howes
      obtain ⟨r', hr', howner⟩ := howes.resolve_left nofun
      obtain ⟨first, waiting, hqueue⟩ := List.exists_cons_of_ne_nil (List.ne_nil_of_mem hr')
      rw [hqueue] at hfirst hr'
      obtain ⟨rfl, rfl⟩ := List.cons.inj hfirst
      have hless := h.distance_lt hdone (ahead m.session job waiting) fun hother => by
        rw [halike.queue, ahead_congr halike.scenes]
        refine Nat.le_of_eq (ahead_append ⟨r', ?_, howner⟩ asked)
        exact (List.mem_cons.mp hr').resolve_left fun heq => hother (heq ▸ howner)
      have hdistance : m.distance job = m.stepsLeft + (stepsOf m.session first.work +
          if first.owner = .user job then 0 else ahead m.session job waiting) := by
        unfold distance
        rw [hfree, hqueue]
        rfl
      rw [hdistance]
      exact Nat.lt_of_lt_of_le hless (Nat.le_add_left _ _)

/-! ## Moves -/

/-- What is done at once takes nothing from what waits and from what was told. -/
structure Readies (m m₁ : Machine) : Prop where
  running : m₁.running = m.running
  queue : m₁.queue = m.queue
  turns : m.session.turns ⊆ m₁.session.turns
  results : ∃ more, m₁.results = m.results ++ more

theorem readies_of_eq (hrunning : m₁.running = m.running) (hqueue : m₁.queue = m.queue)
    (hturns : m₁.session.turns = m.session.turns) (hresults : m₁.results = m.results) :
    Readies m m₁ :=
  ⟨hrunning, hqueue, fun _ ht => hturns ▸ ht, ⟨[], hresults.trans (List.append_nil _).symm⟩⟩

theorem readies_enter (m : Machine) (a : Action) : Readies m (m.enter a).1 := by
  have hgrows := growsAt_plan a m.session
  unfold Session.GrowsAt at hgrows
  unfold enter
  dsimp only
  split <;> rename_i hplan <;> rw [hplan] at hgrows <;> obtain ⟨turns, hturns, -⟩ := hgrows.turns
  · exact ⟨rfl, rfl, hturns ▸ List.subset_append_left _ _, ⟨_, rfl⟩⟩
  · exact ⟨rfl, rfl, hturns ▸ List.subset_append_left _ _, ⟨_, rfl⟩⟩
  · exact ⟨rfl, rfl, hturns ▸ List.subset_append_left _ _, ⟨[], (List.append_nil _).symm⟩⟩

/-- An action is done at once, or asks for the lock under its number. -/
theorem enter_cases (m : Machine) (a : Action) :
    ((m.enter a).1.result? m.nextJob).isSome ∨
      ∃ r ∈ (m.enter a).2.toList, r.owner = .user m.nextJob := by
  have htold (result : Except Fault Reply) :
      ((m.results ++ [(m.nextJob, result)]).lookup m.nextJob).isSome := by
    rw [List.lookup_append, List.lookup_cons_self]
    cases m.results.lookup m.nextJob <;> rfl
  unfold enter
  dsimp only
  split
  · exact .inl (htold _)
  · exact .inl (htold _)
  · exact .inr ⟨_, List.mem_singleton_self _, rfl⟩

/-- In a move, something is done at once, and then a step is made. -/
theorem hands_move (hlocks : m.Locks) (move : Move) :
    ∃ m₁ asked, Readies m m₁ ∧ Hands m₁ asked (m.move move) := by
  cases move with
  | act a => exact ⟨_, _, readies_enter m a, hands_answer (.refl _) id⟩
  | ask r => exact ⟨m, [r], readies_of_eq rfl rfl rfl rfl, hands_request (.refl m) id r⟩
  | turn t =>
      by_cases ht : t ∈ m.session.turns
      · obtain ⟨asked, hhands⟩ := hands_take hlocks ht
        exact ⟨m, asked, readies_of_eq rfl rfl rfl rfl, move_turn ht ▸ hhands⟩
      · have hmove : m.move (.turn t) = m := if_neg ht
        rw [hmove]
        exact ⟨m, [], readies_of_eq rfl rfl rfl rfl, hands_nothing (.refl m) fun _ => id⟩
  | wake d =>
      obtain ⟨asked, hhands⟩ := hands_wake (m := m) d
      exact ⟨{ m with now := max m.now d.time }, asked, readies_of_eq rfl rfl rfl rfl, hhands⟩
  | pass time =>
      exact ⟨{ m with now := time }, [], readies_of_eq rfl rfl rfl rfl,
        hands_nothing (.refl _) fun _ => id⟩

theorem Resumes.move (h : m.Resumes) (hlocks : m.Locks) (move : Move) :
    (m.move move).Resumes := by
  obtain ⟨m₁, asked, hready, hhands⟩ := hands_move hlocks move
  refine hhands.resumes fun r hrunning hwake => hready.turns ?_
  exact h r (hready.running.symm.trans hrunning) hwake

theorem Owes.move (h : m.Owes job) (hlocks : m.Locks) (move : Move) :
    (m.move move).Owes job := by
  obtain ⟨m₁, asked, hready, hhands⟩ := hands_move hlocks move
  refine hhands.owes (.inl ?_)
  unfold Owes at h ⊢
  rw [hready.running, hready.queue]
  obtain ⟨more, hmore⟩ := hready.results
  exact h.imp (result?_append hmore) id

theorem owes_act (m : Machine) (a : Action) : (m.move (.act a)).Owes m.nextJob := by
  have hhands : Hands (m.enter a).1 _ (answer (m.enter a)) := hands_answer (.refl _) id
  exact hhands.owes ((enter_cases m a).imp .inl id)

/-! ## Until what runs goes on -/

/-- What holds of every machine between its moves, if no timer has an interval of no time. -/
structure Obliging (m : Machine) : Prop where
  patient : m.Patient
  resumes : m.Resumes

theorem Obliging.move (h : m.Obliging) {move : Move} (hadmits : m.Admits move) :
    (m.move move).Obliging :=
  ⟨h.patient.move hadmits, h.resumes.move h.patient.regular.locks move⟩

theorem Obliging.after (h : m.Obliging) {moves : List Move} (htimely : m.Timely moves) :
    (m.after moves).Obliging := by
  induction moves generalizing m with
  | nil => exact h
  | cons move moves ih => exact ih (h.move htimely.1) htimely.2

theorem Owes.after (howes : m.Owes job) (h : m.Obliging) {moves : List Move}
    (htimely : m.Timely moves) : (m.after moves).Owes job := by
  induction moves generalizing m with
  | nil => exact howes
  | cons move moves ih =>
      exact ih (howes.move h.patient.regular.locks move) (h.move htimely.1) htimely.2

theorem Obliging.reaches (h : m.Obliging) (hreaches : Reaches m m') : m'.Obliging := by
  obtain ⟨moves, htimely, rfl⟩ := hreaches
  exact h.after htimely

theorem Owes.reaches (howes : m.Owes job) (h : m.Obliging) (hreaches : Reaches m m') :
    m'.Owes job := by
  obtain ⟨moves, htimely, rfl⟩ := hreaches
  exact howes.after h htimely

theorem nears_takeFirst (h : m.Obliging) (howes : m.Owes job) : Nears job m m.takeFirst := by
  rcases takeFirst_cases m with ⟨-, hsame⟩ | ⟨t, ht, htake⟩
  · rw [hsame]
    exact .refl m
  · obtain ⟨asked, hhands⟩ := hands_take h.patient.regular.locks ht
    rw [htake]
    exact hhands.nears howes

theorem nears_wake (howes : m.Owes job) (d : Due) : Nears job m (m.wake d) := by
  obtain ⟨asked, hhands⟩ := hands_wake (m := m) d
  have hnears : Nears job { m with now := max m.now d.time } (m.wake d) := hhands.nears howes
  exact ⟨hnears.told, hnears.nearer⟩

theorem nears_wakeFirst (h : m.Obliging) (howes : m.Owes job) {d : Due} (hd : d ∈ m.dues) :
    Nears job m (schedule.wakeFirst m d) := by
  have hadmits : m.Admits (.wake d) := hd
  have hwoken : Reaches m (m.wake d) := reaches_move hadmits
  refine (rounds_keeps (P := fun m' => m'.Obliging ∧ m'.Owes job ∧ Nears job m m')
    (fun m' hm' => ?_) _ ⟨h.reaches hwoken, howes.reaches h hwoken, nears_wake howes d⟩).2.2
  obtain ⟨hobliging, howes', hnears⟩ := hm'
  have hnext := reaches_takeFirst m'
  exact ⟨hobliging.reaches hnext, howes'.reaches hobliging hnext,
    hnears.trans (nears_takeFirst hobliging howes')⟩

/-- A request is not forgotten, and nothing is left to do at the present instant. -/
structure Awaits (m : Machine) (job : Nat) : Prop where
  obliging : m.Obliging
  owes : m.Owes job
  settled : m.session.turns = []

theorem isOpen_iff : m.isOpen job = true ↔ ¬(m.result? job).isSome := by
  unfold isOpen
  cases m.result? job <;> simp

theorem pauseEnd?_eq_some {time : Nat} (h : m.pauseEnd? job = some time) :
    ∃ r order, m.running = some r ∧ r.wake = some (time, order) := by
  unfold pauseEnd? at h
  split at h
  · obtain ⟨⟨_, order⟩, hwake, rfl⟩ := Option.map_eq_some_iff.mp h
    obtain ⟨r, hrunning, hsome⟩ := Option.bind_eq_some_iff.mp hwake
    exact ⟨r, order, hrunning, hsome⟩
  · nomatch h

/-- While time passes, what runs is as it was, or the end of the request is nearer. -/
theorem Awaits.passWhile (h : m.Awaits job) (time : Nat) :
    (schedule.passWhile (isOpen job) time m).Awaits job ∧
      Nears job m (schedule.passWhile (isOpen job) time m) := by
  refine rounds_keeps (P := fun m' => m'.Awaits job ∧ Nears job m m') ?_ _ ⟨h, .refl m⟩
  rintro m' ⟨hm', hnears⟩
  unfold Schedule.wakeNext
  split
  · exact ⟨hm', hnears⟩
  · rename_i d hnext
    have hd : d ∈ m'.dues := Due.mem_of_first (Schedule.next?_eq_some hnext).1
    have hwoken := reaches_wakeFirst hd
    exact ⟨⟨hm'.obliging.reaches hwoken, hm'.owes.reaches hm'.obliging hwoken, turns_settle _⟩,
      hnears.trans (nears_wakeFirst hm'.obliging hm'.owes hd)⟩

theorem Awaits.passPause (h : m.Awaits job) : (m.passPause job).Awaits job := by
  unfold Machine.passPause
  split
  · exact h
  · exact (h.passWhile _).1

/-- A request is done, or its end is nearer, once the pause of what runs is over. -/
theorem Awaits.nearer (h : m.Awaits job) {time : Nat} (hpause : m.pauseEnd? job = some time) :
    ((m.passPause job).result? job).isSome ∨ (m.passPause job).distance job < m.distance job := by
  obtain ⟨r, order, hrunning, hwake⟩ := pauseEnd?_eq_some hpause
  have hpass : m.passPause job = schedule.passWhile (isOpen job) time m := by
    unfold Machine.passPause
    rw [hpause]
  have hnone : schedule.next? (isOpen job) time (m.passPause job) = none :=
    hpass ▸ passes_schedule.next?_passWhile h.obliging.patient
  rw [hpass] at hnone ⊢
  rcases (h.passWhile time).2.nearer with hdone | hless | ⟨-, hsame⟩
  · exact .inl hdone
  · exact .inr hless
  · -- what runs would still wait, but its wait is over
    by_cases hopen : isOpen job (schedule.passWhile (isOpen job) time m) = true
    · have hdue : (⟨time, order, .running⟩ : Due) ∈ (schedule.passWhile (isOpen job) time m).dues :=
        mem_dues_iff.mpr (.inr ⟨r, hsame.trans hrunning, hwake, rfl⟩)
      exact absurd (Schedule.lt_of_next?_eq_none hnone hopen _ hdue) (Nat.lt_irrefl time)
    · exact .inl (Classical.not_not.mp fun hunknown => hopen (isOpen_iff.mpr hunknown))

/-! ## Answers -/

/-- While a request is not done, a call has the lock and pauses. -/
theorem Awaits.exists_pauseEnd? (h : m.Awaits job) (hopen : ¬(m.result? job).isSome) :
    ∃ time, m.pauseEnd? job = some time := by
  have hrunning : m.running ≠ none := by
    intro hfree
    rcases h.owes with hdone | hholds | ⟨r, hr, -⟩
    · exact hopen hdone
    · rw [hfree] at hholds
      nomatch hholds
    · rcases h.obliging.patient.regular.locks.handedOn (List.ne_nil_of_mem hr) with hsome | hgrant
      · rw [hfree] at hsome
        nomatch hsome
      · rw [h.settled] at hgrant
        nomatch hgrant
  obtain ⟨r, hr⟩ := Option.ne_none_iff_exists'.mp hrunning
  cases hwake : r.wake with
  | none =>
      have hresume := h.obliging.resumes r hr hwake
      rw [h.settled] at hresume
      nomatch hresume
  | some wake =>
      refine ⟨wake.1, ?_⟩
      unfold pauseEnd?
      rw [if_pos (isOpen_iff.mpr hopen), hr, Option.bind_some, hwake]
      rfl

theorem distance_le (m : Machine) (job : Nat) : m.distance job ≤ m.runningSteps + m.queueSteps := by
  have hahead (requests : List Request) : ahead m.session job requests ≤
      (requests.map fun r => stepsOf m.session r.work).sum := by
    induction requests with
    | nil => exact Nat.le_refl 0
    | cons r rest ih =>
        unfold ahead
        rw [List.map_cons, List.sum_cons]
        split
        · omega
        · exact Nat.add_le_add_left ih _
  refine Nat.add_le_add (stepsLeft_le_runningSteps m) ?_
  split
  · exact Nat.zero_le _
  · exact hahead m.queue

/-- A request that is awaited is done in the end. -/
theorem Awaits.answers (h : m.Awaits job) :
    ∃ result, (m.await job).1.result? job = some result ∧ (m.await job).2 = result := by
  suffices hdone : ((m.await job).1.result? job).isSome by
    obtain ⟨result, hresult⟩ := Option.isSome_iff_exists.mp hdone
    refine ⟨result, hresult, ?_⟩
    show ((m.await job).1.result? job).getD _ = result
    rw [hresult]
    rfl
  let P (m' : Machine) : Prop := m'.Awaits job
  let todo (m' : Machine) : Nat := (m'.pauseEnd? job).toList.length
  have hkeeps (m' : Machine) (hm' : P m') : P (m'.passPause job) := hm'.passPause
  have hend : P (m.await job).1 := rounds_keeps hkeeps _ h
  have hnone : todo (m.await job).1 = 0 := by
    refine todo_rounds (P := P) (·.distance job) hkeeps (fun m' hm' hmore => ?_) h
      (Nat.lt_succ_of_le (distance_le m job))
    cases hpause : m'.pauseEnd? job with
    | none => exact absurd (congrArg (List.length ∘ Option.toList) hpause) hmore
    | some time =>
        refine (Awaits.nearer hm' hpause).imp (fun hdone => ?_) id
        show ((m'.passPause job).pauseEnd? job).toList.length = 0
        unfold pauseEnd?
        rw [if_neg fun hopen => isOpen_iff.mp hopen hdone]
        rfl
  by_contra hopen
  obtain ⟨time, hpause⟩ := Awaits.exists_pauseEnd? hend hopen
  have hone : todo (m.await job).1 = 1 := congrArg (List.length ∘ Option.toList) hpause
  rw [hnone] at hone
  nomatch hone

theorem obliging_ofProject (p : Project) (presentation : Presentation) {minInterval : Int}
    (hmin : 1 ≤ minInterval) :
    (ofSession (Session.ofProject p presentation minInterval)).Obliging :=
  ⟨⟨regular_ofProject p presentation minInterval, hmin⟩, fun _ hrunning => nomatch hrunning⟩

section

variable {p : Project} {presentation : Presentation} {minInterval : Int} {a : Action}

/-- **Every action is answered.** Whatever was done before it and after it, a user who awaits an
action is told what came of it: its list, or the list that a change of scene runs, is worked off
with all its pauses, and so is all that is in the queue before it. -/
theorem await_answers (hmin : 1 ≤ minInterval) {before after : List Move}
    (htimely : (ofSession (Session.ofProject p presentation minInterval)).Timely
      (before ++ .act a :: after))
    (hsettled : ((ofSession (Session.ofProject p presentation minInterval)).after
      (before ++ .act a :: after)).session.turns = []) :
    let start := ofSession (Session.ofProject p presentation minInterval)
    let m := start.after (before ++ .act a :: after)
    let job := (start.after before).nextJob
    ∃ result, (m.await job).1.result? job = some result ∧ (m.await job).2 = result := by
  intro start m job
  have hstart : start.Obliging := obliging_ofProject p presentation hmin
  obtain ⟨hbefore, -, hafter⟩ := timely_append.mp htimely
  have hadmits : (start.after before).Admits (.act a) := trivial
  have howes : m.Owes job := by
    have hasked := owes_act (start.after before) a
    show (start.after (before ++ .act a :: after)).Owes job
    rw [after_append]
    exact hasked.after ((hstart.after hbefore).move hadmits) hafter
  exact Awaits.answers ⟨hstart.after htimely, howes, hsettled⟩

/-- The same of an action that is done with all the time that it takes. -/
theorem perform_answers (hmin : 1 ≤ minInterval) {moves : List Move}
    (htimely : (ofSession (Session.ofProject p presentation minInterval)).Timely moves) :
    let m := (ofSession (Session.ofProject p presentation minInterval)).after moves
    ∃ result, (m.perform a).1.result? m.nextJob = some result ∧ (m.perform a).2 = result := by
  intro m
  have hm : m.Obliging := (obliging_ofProject p presentation hmin).after htimely
  have hadmits : m.Admits (.act a) := trivial
  have hsettles := reaches_settle (m.move (.act a))
  have hawaits : ((m.submit a).1).Awaits m.nextJob := by
    rw [submit_eq_settle]
    exact ⟨(hm.move hadmits).reaches hsettles,
      (owes_act m a).reaches (hm.move hadmits) hsettles, turns_settle _⟩
  exact hawaits.answers

end

end Machine

end PointAndClick
