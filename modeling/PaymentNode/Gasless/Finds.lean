import PaymentNode.Gasless.Found

/-!
# Finds — a scan without a hint reaches the event

While no request fails and the bundler names nothing, each observation moves the cursor over full windows of the safe
chain until the window with the event, whose transaction it then inspects.  `FindsWithin` counts the calls this takes.
-/

namespace PaymentNode.Gasless

open Solo

variable {op : GaslessEffect} {cursor : GaslessCursor} {S chain : GaslessChain} {w v : World op}
  {tx tx' : GaslessTransaction} {b b' : Chain.Block GaslessTransaction} {below below' : GaslessChain}

/-! ## One transaction, one block -/

-- A hash names one transaction of one block.
theorem Proper.named (h : Proper op chain) (hb : b :: below <:+ chain) (hb' : b' :: below' <:+ chain)
    (htx : tx ∈ b.transactions) (htx' : tx' ∈ b'.transactions) (hhash : tx.hash = tx'.hash) :
    b :: below = b' :: below' ∧ tx = tx' := by
  -- A block's transactions and those below it have no hash in common.
  have hlower : ∀ {b b' : Chain.Block GaslessTransaction} {below below' : GaslessChain}
      {tx tx' : GaslessTransaction}, b :: below <:+ chain → b' :: below' <:+ below →
      tx ∈ b.transactions → tx' ∈ b'.transactions → tx.hash ≠ tx'.hash := by
    intro b b' below below' tx tx' hb hb' htx htx' hsame
    have hnodup := h.hashes.sublist ((Chain.included_suffix hb).sublist.map _)
    rw [Chain.included_cons, List.map_append, List.nodup_append] at hnodup
    refine hnodup.2.2 tx.hash ?_ tx'.hash ?_ hsame
    · exact List.mem_map.mpr ⟨tx, List.mem_reverse.mpr htx, rfl⟩
    · refine List.mem_map.mpr ⟨tx', Chain.mem_included_of_suffix hb' ?_, rfl⟩
      rw [Chain.included_cons]
      exact List.mem_append_left _ (List.mem_reverse.mpr htx')
  rcases lt_trichotomy below.length below'.length with hlt | heq | hgt
  · have hinside : b :: below <:+ below' := by
      apply Chain.suffix_of_length_le hb ((List.suffix_cons b' below').trans hb')
      simp only [List.length_cons]
      omega
    exact absurd hhash.symm (hlower hb' hinside htx' htx)
  · have hblocks : b :: below = b' :: below' := suffix_eq hb hb' (by simp [heq])
    refine ⟨hblocks, ?_⟩
    have hsame : b = b' := (List.cons.inj hblocks).1
    have hnodup := h.hashes.sublist ((Chain.included_suffix hb).sublist.map _)
    rw [Chain.included_cons, List.map_append, List.nodup_append] at hnodup
    apply List.inj_on_of_nodup_map hnodup.1
    · exact List.mem_reverse.mpr htx
    · exact List.mem_reverse.mpr (hsame ▸ htx')
    · exact hhash
  · have hinside : b' :: below' <:+ below := by
      apply Chain.suffix_of_length_le hb' ((List.suffix_cons b below).trans hb)
      simp only [List.length_cons]
      omega
    exact absurd hhash (hlower hb hinside htx htx')

/-! ## The logs of a window -/

/-- The logs of the operation's events in a block. -/
def eventLogs (op : GaslessEffect) (b : Chain.Block GaslessTransaction) (number : ℕ) :
    List GaslessScanLog :=
  b.transactions.flatMap fun tx => (tx.logs.filter (isEvent op)).map fun log =>
    ⟨number, false, log, tx.hash⟩

theorem eventLogs_nil {number : ℕ} (h : hasEvent op b = false) : eventLogs op b number = [] := by
  rw [eventLogs, List.flatMap_eq_nil_iff]
  intro tx htx
  rw [List.map_eq_nil_iff, List.filter_eq_nil_iff]
  intro log hlog hevent
  have hany : hasEvent op b := List.any_eq_true.mpr ⟨tx, htx, List.any_eq_true.mpr ⟨log, hlog, hevent⟩⟩
  rw [h] at hany
  cases hany

theorem logsBetween_eventless {start stop : ℕ}
    (h : ∀ b below, b :: below <:+ chain → hasEvent op b = false) :
    logsBetween op start stop chain = [] := by
  induction chain with
  | nil => rfl
  | cons c rest ih =>
    have hc : eventLogs op c rest.length = [] := eventLogs_nil (h c rest (List.suffix_refl _))
    have hrest : logsBetween op start stop rest = [] :=
      ih fun b below hb => h b below (hb.trans (List.suffix_cons _ _))
    rw [logsBetween, hrest, List.nil_append]
    split
    · exact hc
    · rfl

-- The logs of a range are the event's, where the range holds its block.
theorem logsBetween_event {start stop : ℕ} (hproper : Proper op chain) (hb : b :: below <:+ chain)
    (hevent : hasEvent op b) :
    logsBetween op start stop chain =
      if start ≤ below.length ∧ below.length ≤ stop then eventLogs op b below.length else [] := by
  have hsub : ∀ {c : GaslessChain}, c <:+ chain → b :: below <:+ c → logsBetween op start stop c =
      if start ≤ below.length ∧ below.length ≤ stop then eventLogs op b below.length else [] := by
    intro c hc hbc
    induction c with
    | nil => cases hbc.length_le
    | cons d rest ih =>
      rcases List.suffix_cons_iff.mp hbc with heq | hrest
      · cases heq
        rw [logsBetween, logsBetween_eventless fun b' below' hb' => hproper.apart hc hevent hb',
          List.nil_append]
        rfl
      · have hd : eventLogs op d rest.length = [] := by
          apply eventLogs_nil
          by_contra hother
          rw [Bool.not_eq_false] at hother
          rw [hproper.apart hc hother hrest] at hevent
          cases hevent
        rw [logsBetween, ih ((List.suffix_cons _ _).trans hc) hrest]
        show _ ++ (if start ≤ rest.length ∧ rest.length ≤ stop then eventLogs op d rest.length else []) = _
        rw [hd, ite_self, List.append_nil]
  exact hsub (List.suffix_refl _) hb

theorem mem_logsBetween {start stop : ℕ} {log : GaslessScanLog}
    (h : log ∈ logsBetween op start stop chain) :
    log.removed = false ∧ start ≤ log.blockNumber ∧ log.blockNumber ≤ stop ∧ isEvent op log.log := by
  induction chain with
  | nil => cases h
  | cons c rest ih =>
    rcases List.mem_append.mp h with hrest | hc
    · exact ih hrest
    · split at hc
      · rename_i hrange
        rcases List.mem_flatMap.mp hc with ⟨tx, -, hmap⟩
        rcases List.mem_map.mp hmap with ⟨l, hl, rfl⟩
        exact ⟨rfl, hrange.1, hrange.2, (List.mem_filter.mp hl).2⟩
      · cases hc

theorem zip_map_self {α β : Type} {f : α → β} {rows : List α} :
    ∀ row ∈ rows.zip (rows.map f), row.2 = f row.1 := by
  induction rows with
  | nil => simp
  | cons r rows ih =>
    intro row hrow
    rw [List.map_cons, List.zip_cons_cons] at hrow
    rcases List.mem_cons.mp hrow with rfl | hrow
    · rfl
    · exact ih row hrow

-- Truthful logs pass the scan's checks.
theorem scanLogs_truthful {rows : List (ℕ × ℕ)} {values : List (List GaslessScanLog)}
    (hvalues : values = rows.map fun range => logsBetween op range.1 range.2 chain)
    (hcount : values.flatten.length ≤ 128) (hdata : ∀ log ∈ values.flatten, log.log.dataBytes ≤ scanDataLimit) :
    scanLogs op rows values = .ok (values.flatten.map (·.transactionHash)).dedup := by
  unfold scanLogs
  have hlength : rows.length = values.length := by rw [hvalues, List.length_map]
  rw [if_neg (by omega), if_neg, if_neg]
  · rw [Bool.not_eq_true, List.any_eq_false]
    exact fun log hlog => by simpa using hdata log hlog
  rw [Bool.not_eq_true, List.any_eq_false]
  intro row hrow hbad
  rw [hvalues] at hrow
  have hrow2 := zip_map_self row hrow
  rcases List.any_eq_true.mp hbad with ⟨log, hlog, hfault⟩
  rw [hrow2] at hlog
  rcases mem_logsBetween hlog with ⟨hremoved, hlow, hhigh, hevent⟩
  simp [hremoved, hevent, not_lt.mpr hlow, not_lt.mpr hhigh] at hfault

theorem flatMap_at {α : Type} {xs : List α} {n k : ℕ} :
    ((List.range n).flatMap fun i => if i = k then xs else []) = if k < n then xs else [] := by
  induction n with
  | zero => rfl
  | succ n ih =>
    rw [List.range_succ, List.flatMap_append, ih, List.flatMap_cons, List.flatMap_nil, List.append_nil]
    by_cases hk : k < n
    · rw [if_pos hk, if_neg (by omega), if_pos (by omega), List.append_nil]
    · rw [if_neg hk, List.nil_append]
      by_cases heq : n = k
      · rw [if_pos heq, if_pos (by omega)]
      · rw [if_neg heq, if_neg (by omega)]

theorem window_logs {start stop : ℕ} (hproper : Proper op chain) (hb : b :: below <:+ chain)
    (hevent : hasEvent op b) (hstart : start ≤ below.length) :
    ((ranges start stop).map fun range => logsBetween op range.1 range.2 chain).flatten =
      if below.length ≤ stop then eventLogs op b below.length else [] := by
  have hrange : ∀ i, logsBetween op (start + logRequestBlocks * i)
      (min stop (start + logRequestBlocks * i + (logRequestBlocks - 1))) chain =
      if i = (below.length - start) / logRequestBlocks then
        if below.length ≤ stop then eventLogs op b below.length else [] else [] := by
    intro i
    rw [logsBetween_event hproper hb hevent]
    unfold logRequestBlocks
    by_cases hi : i = (below.length - start) / 10
    · rw [if_pos hi]
      by_cases hstop : below.length ≤ stop
      · rw [if_pos hstop, if_pos (by omega)]
      · rw [if_neg hstop, if_neg (by omega)]
    · rw [if_neg hi, if_neg (by omega)]
  have hmap : ((ranges start stop).map fun range => logsBetween op range.1 range.2 chain) =
      (List.range ((stop - start) / logRequestBlocks + 1)).map fun i =>
        if i = (below.length - start) / logRequestBlocks then
          if below.length ≤ stop then eventLogs op b below.length else [] else [] := by
    rw [ranges, List.map_map]
    exact List.map_congr_left fun i _ => hrange i
  rw [hmap, ← List.flatMap_def, flatMap_at]
  by_cases hstop : below.length ≤ stop
  · rw [if_pos hstop, if_pos]
    have hdiv : (below.length - start) / 10 ≤ (stop - start) / 10 := Nat.div_le_div_right (by omega)
    show (below.length - start) / 10 < (stop - start) / 10 + 1
    omega
  · rw [if_neg hstop, ite_self]

/-! ## Calls that are served -/

def Answered {α : Type} (answer : GaslessResult α) : Prop := ∃ a, answer = .ok a

/-- Every read is answered, the bundler offers no usable hint, and the owner's account has not been delegated to another
contract. -/
def Served (op : GaslessEffect) : (q : GaslessRequest) → q.Answer → Prop
  | .bundler, answer => locator (rowCandidate op answer.1) (rowCandidate op answer.2) = none
  | .anchors _, answer => Answered answer
  | .window _ _, answer => Answered answer
  | .lookup _, answer => Answered answer
  | .headers _ _ _, answer => Answered answer
  | .settle _, answer => ∃ a, answer = .ok a ∧ a.1 ≠ .foreign
  | .probe, _ => True

/-- The transaction of the operation, in the block `b :: below`, with the receipt accounting of the intent, within the
limits of the inspection and of the scan. -/
structure Lands (op : GaslessEffect) (b : Chain.Block GaslessTransaction) (below : GaslessChain)
    (tx : GaslessTransaction) : Prop where
  start : Chain.height op.startBlock ≤ below.length
  mem : tx ∈ b.transactions
  outer : Outer op b tx
  eventData : ∀ log ∈ tx.logs, isEvent op log → log.dataBytes ≤ scanDataLimit
  accounting : gaslessAccounting op tx

theorem Lands.bears (h : Lands op b below tx) : bearing op tx := bearing_of_accounting h.accounting

theorem Lands.hasEvent (h : Lands op b below tx) : hasEvent op b :=
  List.any_eq_true.mpr ⟨tx, h.mem, h.bears⟩

theorem Lands.landed (h : Lands op b below tx) : Landed op (b :: below) :=
  ⟨b, below, rfl, h.start, h.hasEvent⟩

theorem Lands.success (h : Lands op b below tx) (hproper : Proper op chain) (hb : b :: below <:+ chain) :
    tx.success := by
  by_contra hreverted
  rw [Bool.not_eq_true] at hreverted
  have hincluded : tx ∈ Chain.included chain := by
    apply Chain.mem_included_of_suffix hb
    rw [Chain.included_cons]
    exact List.mem_append_left _ (List.mem_reverse.mpr h.mem)
  have hbears := h.bears
  rw [bearing, hproper.reverted tx hincluded hreverted] at hbears
  cases hbears

-- The logs of the operation in the block are the transaction's.
theorem Lands.eventLogs_eq (h : Lands op b below tx) (hproper : Proper op chain) (hb : b :: below <:+ chain)
    (number : ℕ) :
    eventLogs op b number = (tx.logs.filter (isEvent op)).map fun log => ⟨number, false, log, tx.hash⟩ := by
  have hcount : (b.transactions.filter (bearing op)).length ≤ 1 := by
    have hsub := ((Chain.included_suffix hb).sublist.filter (bearing op)).length_le
    rw [Chain.included_cons, List.filter_append, List.length_append, List.filter_reverse,
      List.length_reverse] at hsub
    have honce : ((Chain.included chain).filter (bearing op)).length ≤ 1 := hproper.once
    omega
  rcases List.append_of_mem h.mem with ⟨before, after, hsplit⟩
  rw [hsplit, List.filter_append, List.filter_cons_of_pos h.bears, List.length_append,
    List.length_cons] at hcount
  -- The transactions beside it carry no event.
  have hquiet : ∀ txs : List GaslessTransaction, (txs.filter (bearing op)).length = 0 →
      (txs.flatMap fun tx => (tx.logs.filter (isEvent op)).map fun log =>
        (⟨number, false, log, tx.hash⟩ : GaslessScanLog)) = [] := by
    intro txs hnone
    rw [List.flatMap_eq_nil_iff]
    intro other hother
    have hnot := List.filter_eq_nil_iff.mp (List.length_eq_zero_iff.mp hnone) other hother
    rw [bearing, Bool.not_eq_true, List.any_eq_false] at hnot
    rw [List.map_eq_nil_iff, List.filter_eq_nil_iff]
    exact hnot
  rw [Gasless.eventLogs, hsplit, List.flatMap_append, List.flatMap_cons, hquiet before (by omega),
    hquiet after (by omega), List.nil_append, List.append_nil]

-- The block holds one log of the operation.
theorem Lands.eventLogs (h : Lands op b below tx) (hproper : Proper op chain) (hb : b :: below <:+ chain)
    (number : ℕ) : (eventLogs op b number).map (·.transactionHash) = [tx.hash] := by
  have hlogs : (tx.logs.filter (isEvent op)).length = 1 := by
    have haccounting := h.accounting
    simp only [gaslessAccounting, Bool.and_eq_true, decide_eq_true_eq] at haccounting
    exact haccounting.1
  rw [h.eventLogs_eq hproper hb, List.map_map]
  rcases List.length_eq_one_iff.mp hlogs with ⟨log, hlog⟩
  rw [hlog]
  rfl

theorem Lands.scanned (h : Lands op b below tx) (hproper : Proper op chain) (hb : b :: below <:+ chain) (number : ℕ) :
    ∀ log ∈ Gasless.eventLogs op b number, log.log.dataBytes ≤ scanDataLimit := by
  rw [h.eventLogs_eq hproper hb, List.forall_mem_map]
  intro log hlog
  rcases List.mem_filter.mp hlog with ⟨hmem, hevent⟩
  exact h.eventData log hmem hevent

variable {E : String → World op → Prop}

theorem does_served {α β : Type} {q : GaslessRequest} {h : q.Answer = GaslessResult α}
    {f : α → GaslessProg β} {Q : β → World op → Prop} (hserved : ∀ e, ¬ Served op q (h.symm ▸ .error e))
    (hf : ∀ a (v : World op), Grown S v → answers op v q (h.symm ▸ .ok a) →
      Does op (Served op) (Grown S) (f a) Q E) :
    Does op (Served op) (Grown S) ((Prog.run q h).bind f) Q E := by
  apply Triple.bind (does_request.conseq (fun _ _ h => h) (fun _ _ _ h => h) fun e _ _ h =>
    absurd h.1 (hserved e))
  intro a
  apply Triple.assume
  rintro ⟨v, hgrown, hanswers, -⟩
  exact hf a v hgrown hanswers

theorem not_answered {α : Type} (e : String) : ¬ Answered (.error e : GaslessResult α) := by
  rintro ⟨a, h⟩
  cases h

theorem does_passes {P : World op → Prop} {c : Prop} [Decidable c] {reason : String} {α : Type}
    {x : GaslessProg α} {Q : α → World op → Prop} (hc : ¬ c)
    (hx : Does op meets P x Q E) : Does op meets P ((refuse c reason).bind fun _ => x) Q E := by
  rw [refuse, if_neg hc]
  exact hx

-- The last read of an inspection, served.
theorem does_settled {number : ℕ} {α : Type} {f : GaslessDelegation × GaslessChain → GaslessProg α}
    {Q : α → World op → Prop}
    (hf : ∀ delegation block (v : World op), Grown S v → Chain.blockAt v.chain number = some block →
      delegation ≠ .foreign → Does op (Served op) (Grown S) (f (delegation, block)) Q E) :
    Does op (Served op) (Grown S) ((Prog.run (.settle number) rfl).bind f) Q E := by
  apply Triple.bind (does_request.conseq (fun _ _ h => h) (fun _ _ _ h => h) fun e _ _ h => ?_)
  · rintro ⟨delegation, block⟩
    apply Triple.assume
    rintro ⟨v, hgrown, hanswers, a, ha, hdelegation⟩
    cases ha
    exact hf delegation block v hgrown (hanswers _ rfl) hdelegation
  · rcases h.1 with ⟨a, ha, -⟩
    cases ha

/-- What finds the operation. -/
def Found (hash : String) (obs : GaslessObservation) : Prop :=
  obs.status = .safe ∧ obs.transactionHash = some hash

-- The block of a chain above the event's is the event's.
theorem block_of_event {number : ℕ} {block : GaslessChain} (hgrown : Grown (b :: below) v)
    (h : Chain.blockAt v.chain number = some block) (hnumber : number = below.length) :
    block = b :: below := by
  rcases Chain.blockAt_eq_some.mp h with ⟨hsuffix, hlength⟩
  apply suffix_eq hsuffix hgrown.on_chain
  rw [hlength, hnumber]
  rfl

/-- **An inspection that is served settles the operation.** -/
theorem serves_inspect (h : Lands op b below tx) (hstart : cursor.startBlock = op.startBlock) :
    Does op (Served op) (Grown (b :: below)) (inspect op tx.hash cursor) (fun obs _ => Found tx.hash obs)
      fun _ _ => False := by
  have hheight : Chain.height (b :: below) = below.length := rfl
  apply does_served (h := rfl)
  · exact not_answered
  intro found v hgrown hlookup
  have hthere : tx ∈ Chain.included v.chain := by
    apply Chain.mem_included_of_suffix hgrown.on_chain
    rw [Chain.included_cons]
    exact List.mem_append_left _ (List.mem_reverse.mpr h.mem)
  have hfound := hlookup _ rfl
  cases found with
  | missing => exact absurd rfl (hfound tx hthere)
  | unmined => exact absurd rfl (hfound tx hthere)
  | mined tx' block =>
    rcases hfound with ⟨hhash, b', below', hblock, hsuffix, htx'⟩
    -- The block the lookup names is the event's, so each check is of the event's transaction.
    rcases v.proper.named hgrown.on_chain (hblock ▸ hsuffix) h.mem htx' hhash.symm with ⟨hsame, rfl⟩
    rw [← hsame] at hblock
    subst hblock
    apply does_passes
    · rw [hstart, hheight]
      exact not_lt.mpr h.start
    · apply does_served (h := rfl)
      · exact not_answered
      intro headers u hgrown hheaders
      rcases hheaders _ rfl with ⟨hincluded, hsafe, hlatest, -, -⟩
      have hevent : headers.included = b :: below := block_of_event hgrown hincluded hheight
      apply does_passes
      · rw [hevent, not_or, not_not, not_lt]
        exact ⟨rfl, h.outer.block⟩
      apply does_passes (not_lt.mpr h.outer.input)
      apply does_passes
      · rintro (h' | h' | h')
        · exact h' h.outer.target
        · exact h' h.outer.value
        · exact h.outer.sender h'
      · apply does_passes (not_lt.mpr h.outer.logs)
        apply does_passes
        · push Not
          exact h.outer.logData
        apply Triple.ite
        · exact fun hreverted => absurd (h.success u.proper hgrown.on_chain) hreverted
        · intro _
          -- The safe head holds the event's block, so neither early answer is given.
          have hdeep : below.length + 1 ≤ headers.safe.length := by
            rw [hsafe]
            exact List.IsSuffix.length_le hgrown
          have habove : headers.safe.length ≤ headers.latest.length := by
            rw [hsafe, hlatest]
            exact u.suffix.length_le
          unfold Chain.height
          apply does_passes (by omega)
          apply Triple.ite
          · intro hunsafe
            simp only [List.length_cons] at hunsafe
            omega
          · intro _
            apply does_passes (not_not.mpr h.accounting)
            apply does_settled
            intro delegation again x hgrown hagain hdelegation
            have hsettled : again = b :: below := block_of_event hgrown hagain hheight
            apply does_passes hdelegation
            apply does_passes (not_not.mpr (hsettled.trans hevent.symm))
            exact Triple.ret fun _ _ _ => ⟨rfl, rfl⟩

/-! ## Windows that are served -/

/-- A cursor on the safe chain with the operation in front of it. -/
structure Ready (op : GaslessEffect) (S : GaslessChain) (cursor : GaslessCursor) : Prop where
  valid : validCursor op cursor
  clean : Clean op cursor
  anchored : ∀ previous, cursor.previousEndBlock = some previous → previous <:+ S

theorem Ready.onChain (h : Ready op S cursor) : OnChain S cursor :=
  fun previous hprevious => Or.inl (h.anchored previous hprevious)

-- The cursor has not passed the event's block.
theorem next_le_event (hlands : Lands op b below tx) (hS : b :: below <:+ S) (hvalid : validCursor op cursor)
    (hclean : Clean op cursor) (hon : OnChain S cursor) : cursor.nextBlock ≤ below.length := by
  by_contra hpassed
  have hcursor := hvalid.2.2
  cases hanchor : cursor.previousEndBlock with
  | none =>
    rw [hanchor] at hcursor
    have hnext : cursor.nextBlock = Chain.height cursor.startBlock := hcursor
    rw [hvalid.1] at hnext
    have hstart := hlands.start
    omega
  | some anchor =>
    rw [hanchor] at hcursor
    have hpos : 0 < anchor.length := List.length_pos_of_ne_nil hcursor.1
    have hnext : cursor.nextBlock = anchor.length - 1 + 1 := hcursor.2.2
    have hbehind : b :: below <:+ anchor := by
      rcases hon anchor hanchor with h | h
      · apply Chain.suffix_of_length_le hS h
        simp only [List.length_cons]
        omega
      · exact hS.trans h
    exact hlands.landed.not_eventless hbehind (hclean anchor hanchor)

-- A window that is served names the transaction, where it holds the event.
theorem serves_window (h : Lands op b below tx) (hS : b :: below <:+ S) {start stop : ℕ}
    (hstart : start ≤ below.length) :
    Does op (Served op) (Grown S)
      (do
        let answer ← Prog.run (.window stop (ranges start stop)) rfl
        let candidates ← Prog.ofExcept (scanLogs op (ranges start stop) answer.2)
        return (answer.1, candidates) : GaslessProg (GaslessChain × List String))
      (fun found w => (∃ v : World op, ∃ values, Grown S v ∧ Chain.blockAt v.chain stop = some found.1 ∧
        values = ((ranges start stop).map fun range => logsBetween op range.1 range.2 v.chain) ∧
        if below.length ≤ stop then found.2 = [tx.hash]
        else found.2 = [] ∧ ∀ value ∈ values, value = []) ∧ Grown S w)
      fun _ _ => False := by
  apply does_served (h := rfl)
  · exact not_answered
  intro answer v hgrown hanswer
  rcases hanswer _ rfl with ⟨hblock, hvalues⟩
  have hon : b :: below <:+ v.chain := hS.trans hgrown.on_chain
  have hlogs : _ = if below.length ≤ stop then eventLogs op b below.length else [] :=
    window_logs v.proper hon h.hasEvent hstart
  rw [← hvalues] at hlogs
  have hone := congrArg List.length (h.eventLogs v.proper hon below.length)
  rw [List.length_map, List.length_singleton] at hone
  have hcount : answer.2.flatten.length ≤ 128 := by
    rw [hlogs]
    split
    · omega
    · exact Nat.zero_le _
  have hdata : ∀ log ∈ answer.2.flatten, log.log.dataBytes ≤ scanDataLimit := by
    rw [hlogs]
    split
    · exact h.scanned v.proper hon below.length
    · exact fun _ hnone => absurd hnone List.not_mem_nil
  rw [scanLogs_truthful hvalues hcount hdata]
  apply Triple.ret
  intro w _ hgrown'
  refine ⟨⟨v, answer.2, hgrown, hblock, hvalues, ?_⟩, hgrown'⟩
  by_cases hinside : below.length ≤ stop
  · rw [if_pos hinside] at hlogs ⊢
    show (answer.2.flatten.map (·.transactionHash)).dedup = [tx.hash]
    rw [hlogs, h.eventLogs v.proper hon]
    exact List.dedup_eq_self.mpr (List.nodup_singleton _)
  · rw [if_neg hinside] at hlogs ⊢
    refine ⟨?_, List.flatten_eq_nil_iff.mp hlogs⟩
    show (answer.2.flatten.map (·.transactionHash)).dedup = []
    rw [hlogs]
    rfl

theorem does_inspectSafely_found (h : Lands op b below tx) (hS : b :: below <:+ S)
    (hstart : cursor.startBlock = op.startBlock) :
    Does op (Served op) (Grown S) (inspectSafely op tx.hash cursor) (fun obs _ => Found tx.hash obs)
      fun _ _ => False := by
  apply Triple.handle (F := fun _ _ => False)
  · exact (serves_inspect h hstart).pre fun _ _ hgrown => hS.trans hgrown
  · exact fun _ => Triple.absurd fun _ _ h => h

/-- **Windows that are served** find the operation, or move the cursor over each of them. -/
theorem serves_scanFrom (h : Lands op b below tx) (hS : b :: below <:+ S) (n : ℕ)
    (hready : Ready op S cursor) :
    Does op (Served op) (Grown S) (scanFrom op S n cursor)
      (fun result _ => Found tx.hash result.1 ∨ (result.2 = none ∧ Ready op S result.1.cursor ∧
        result.1.cursor.nextBlock = cursor.nextBlock + scanWindowBlocks * n))
      fun _ _ => False := by
  have hlength : below.length + 1 ≤ S.length := hS.length_le
  induction n generalizing cursor with
  | zero =>
    have hnext := next_le_event h hS hready.valid hready.clean hready.onChain
    apply Triple.ret
    intro _ _ _
    refine Or.inr ⟨?_, hready, rfl⟩
    apply if_neg
    rintro ⟨hreached, -⟩
    unfold Chain.height at hreached
    omega
  | succ n ih =>
    have hnext := next_le_event h hS hready.valid hready.clean hready.onChain
    have hbelow : cursor.nextBlock ≤ Chain.height S := by
      unfold Chain.height
      omega
    rw [scanFrom, if_neg (not_lt.mpr hbelow)]
    apply Triple.bind (Triple.attempt (serves_window h hS hnext))
    intro found
    cases found with
    | error e => exact Triple.absurd fun _ _ h => h
    | ok found =>
      rcases found with ⟨stopBlock, candidates⟩
      apply Triple.assume
      rintro ⟨v, values, hgrown, hstop, hvalues, hcandidates⟩
      split at hcandidates
      · have hone : candidates = [tx.hash] := hcandidates
        subst hone
        apply Triple.bind (does_inspectSafely_found h hS hready.valid.1)
        intro observation
        exact Triple.ret fun _ _ hfound => Or.inl hfound
      · rename_i houtside
        have hnone : candidates = [] := hcandidates.1
        subst hnone
        -- The window ends below the event, so it is a full one.
        have hfull : min (Chain.height S) (cursor.nextBlock + scanWindowBlocks - 1) =
            cursor.nextBlock + scanWindowBlocks - 1 := by
          unfold Chain.height scanWindowBlocks at houtside ⊢
          omega
        have hlow : cursor.nextBlock ≤ min (Chain.height S) (cursor.nextBlock + scanWindowBlocks - 1) := by
          unfold scanWindowBlocks
          omega
        rcases window_clean hready.valid hready.clean hready.onChain hgrown hbelow
            (List.length_pos_iff.mp (by omega)) hlow (Nat.min_le_left _ _) hstop hvalues hcandidates.2 with
          ⟨hvalid, hclean, hsuffix⟩
        have hmoved : Ready op S ⟨cursor.startBlock,
            min (Chain.height S) (cursor.nextBlock + scanWindowBlocks - 1) + 1, some stopBlock⟩ :=
          ⟨hvalid, hclean, fun previous hprevious => Option.some.inj hprevious ▸ hsuffix⟩
        apply (ih hmoved).conseq (fun _ _ h => h) _ fun _ _ _ h => h
        rintro result _ - (hfound | ⟨hnone, hready', hnext'⟩)
        · exact Or.inl hfound
        · refine Or.inr ⟨hnone, hready', ?_⟩
          rw [hnext', hfull]
          unfold scanWindowBlocks
          show cursor.nextBlock + 256 - 1 + 1 + 256 * n = cursor.nextBlock + 256 * (n + 1)
          omega

/-! ## Calls -/

/-- What a served call leaves of an operation that landed at or below `T`: it is found, or the cursor moved over four
windows of the safe chain, or it was anchored elsewhere and starts again. -/
def Advanced (op : GaslessEffect) (T : GaslessChain) (hash : String) (cursor : GaslessCursor)
    (obs : GaslessObservation) (w : World op) : Prop :=
  Found hash obs ∨
    (∃ S, T <:+ S ∧ Grown S w ∧ Ready op S obs.cursor ∧
      obs.cursor.nextBlock = cursor.nextBlock + scanWindowBlocks * scanWindows) ∨
    (obs.cursor = initialCursor op.startBlock ∧ Grown T w ∧
      ¬ ∀ previous, cursor.previousEndBlock = some previous → previous <:+ T)

variable {T : GaslessChain}

theorem serves_scan (h : Lands op b below tx) (hT : b :: below <:+ T)
    (hvalid : validCursor op cursor) (hclean : Clean op cursor) :
    Does op (Served op) (Grown T) (scan op cursor)
      (fun result w => Advanced op T tx.hash cursor result.1 w ∧
        (Found tx.hash result.1 ∨ result.2 = none)) fun _ _ => False := by
  have hanchors : Does op (Served op) (Grown T)
      (Prog.run (.anchors (cursor.previousEndBlock.map Chain.height)) rfl :
        GaslessProg (GaslessChain × Option GaslessChain))
      (fun answer w => (∃ v : World op, Grown T v ∧ answer.1 = v.safe ∧
        answer.2 = (cursor.previousEndBlock.map Chain.height).bind (Chain.blockAt v.chain)) ∧
          Grown answer.1 w) fun _ _ => False := by
    apply Triple.run
    rintro s t answer - hgrown ⟨hserved, hmoves, hanswers⟩
    refine ⟨trivial, ?_⟩
    cases answer with
    | ok answer =>
      rcases hanswers _ rfl with ⟨hsafe, hblock, -⟩
      exact ⟨⟨t, List.IsSuffix.trans hgrown hmoves, hsafe, hblock⟩, hsafe ▸ List.suffix_refl _⟩
    | error e => exact not_answered e hserved
  apply Triple.bind (Triple.attempt hanchors)
  intro answer
  cases answer with
  | error e => exact Triple.absurd fun _ _ h => h
  | ok answer =>
    apply Triple.assume
    rintro ⟨v, hgrown, hsafe, hblock⟩
    have hS : T <:+ answer.1 := hsafe ▸ hgrown
    apply Triple.ite
    · -- The anchor is read as another block: the cursor starts again.
      intro hdiffers
      apply Triple.ret
      intro w _ hgrown'
      refine ⟨Or.inr (Or.inr ⟨?_, List.IsSuffix.trans hS hgrown', ?_⟩), Or.inr rfl⟩
      · show initialCursor cursor.startBlock = initialCursor op.startBlock
        rw [hvalid.1]
      · intro hanchored
        apply hdiffers
        cases hprevious : cursor.previousEndBlock with
        | none =>
          rw [hprevious] at hblock
          exact hblock
        | some previous =>
          rw [hprevious] at hblock
          have hcursor := hvalid.2.2
          rw [hprevious] at hcursor
          have hpos : 0 < previous.length := List.length_pos_of_ne_nil hcursor.1
          rw [hblock]
          refine Chain.blockAt_eq_some.mpr ⟨(hanchored previous hprevious).trans hgrown.on_chain, ?_⟩
          unfold Chain.height
          omega
    · intro hsame
      -- The anchor is on the chain of the safe head: windows are read from the cursor.
      rw [not_not] at hsame
      have hon : OnChain answer.1 cursor := anchor_on_chain hsafe hblock hsame
      have hnext := next_le_event h (hT.trans hS) hvalid hclean hon
      have hlength := (hT.trans hS).length_le
      have hready : Ready op answer.1 cursor := by
        refine ⟨hvalid, hclean, ?_⟩
        intro previous hprevious
        have hcursor := hvalid.2.2
        rw [hprevious] at hcursor
        have hheight : cursor.nextBlock = previous.length - 1 + 1 := hcursor.2.2
        rcases hon previous hprevious with hbelow | habove
        · exact hbelow
        · have hle := habove.length_le
          simp only [List.length_cons] at hlength
          omega
      have hgrows := Triple.frame (K := Grown answer.1)
        (fun _ _ _ _ h hgrown => List.IsSuffix.trans hgrown h.2.1)
        (serves_scanFrom h (hT.trans hS) scanWindows hready)
      apply hgrows.conseq (fun _ _ h => ⟨h, h⟩) _ fun _ _ _ h => h.1
      rintro result w - ⟨hfound | ⟨hnone, hready', hnext'⟩, hgrown'⟩
      · exact ⟨Or.inl hfound, Or.inl hfound⟩
      · exact ⟨Or.inr (Or.inl ⟨answer.1, hS, hgrown', hready', hnext'⟩), Or.inr hnone⟩

/-- **One served call.** -/
theorem serves_observe (h : Lands op b below tx) (hT : b :: below <:+ T)
    (hvalid : validCursor op cursor) (hclean : Clean op cursor) :
    Does op (Served op) (Grown T) (observeGasless op cursor)
      (fun obs w => Advanced op T tx.hash cursor obs w) fun _ _ => False := by
  apply does_passes (not_not.mpr hvalid)
  apply Triple.bind (M := fun candidate w => candidate = none ∧ Grown T w)
  · apply Triple.bind (M := fun rows w =>
      locator (rowCandidate op rows.1) (rowCandidate op rows.2) = none ∧ Grown T w)
    · apply Triple.perform
      rintro s rows t - hgrown ⟨hserved, hmoves, -⟩
      exact ⟨trivial, hserved, List.IsSuffix.trans hgrown hmoves⟩
    · intro rows
      exact Triple.ret fun _ _ h => h
  · intro candidate
    apply Triple.assume
    rintro rfl
    apply Triple.bind (serves_scan h hT hvalid hclean)
    intro scanned
    split
    · rename_i hstatus hhead
      apply Triple.absurd
      rintro w - ⟨-, hfound | hnone⟩
      · have hsafe : scanned.1.status = .safe := hfound.1
        rw [hstatus] at hsafe
        cases hsafe
      · rw [hhead] at hnone
        cases hnone
    · exact Triple.ret fun _ _ h => h.1

/-- One observation from a cursor, over steps that meet a condition. -/
def Observes (op : GaslessEffect) (meets : (q : GaslessRequest) → q.Answer → Prop) (w : World op)
    (cursor : GaslessCursor) (r : GaslessResult GaslessObservation) (w' : World op) : Prop :=
  System.Ends (Solo.system ((exec op).only fun _ => meets)) () (observeGasless op cursor) w r w'

/-- At most `n` served calls, each from the last one's cursor on a chain whose safe head grew, find the operation. -/
def FindsWithin (op : GaslessEffect) (hash : String) : ℕ → World op → GaslessCursor → Prop
  | 0, _, _ => False
  | n + 1, w, cursor => ∀ w' r w'', w.safe <:+ w'.safe → Observes op (Served op) w' cursor r w'' →
      ∃ obs, r = .ok obs ∧ (Found hash obs ∨ FindsWithin op hash n w'' obs.cursor)

theorem served_call {r : GaslessResult GaslessObservation} (h : Lands op b below tx)
    (hT : b :: below <:+ T) (hvalid : validCursor op cursor) (hclean : Clean op cursor) (hw : T <:+ w.safe)
    (hobserves : Observes op (Served op) w cursor r w') :
    ∃ obs, r = .ok obs ∧ Advanced op T tx.hash cursor obs w' := by
  have hends := (serves_observe h hT hvalid hclean).ends trivial hw hobserves
  cases r with
  | ok obs => exact ⟨obs, rfl, hends⟩
  | error e => exact hends.elim

theorem findsWithin_ready {n : ℕ} (h : Lands op b below tx) (hT : b :: below <:+ T)
    (hready : Ready op T cursor) (hn : below.length < cursor.nextBlock + scanWindowBlocks * scanWindows * n)
    (hw : T <:+ w.safe) : FindsWithin op tx.hash n w cursor := by
  induction n generalizing T cursor w with
  | zero =>
    have hnext := next_le_event h hT hready.valid hready.clean hready.onChain
    omega
  | succ n ih =>
    intro w' r w'' hgrown hobserves
    rcases served_call h hT hready.valid hready.clean (hw.trans hgrown) hobserves with
      ⟨obs, rfl, hfound | ⟨S, hS, hgrown', hready', hnext⟩ | ⟨-, -, haway⟩⟩
    · exact ⟨obs, rfl, Or.inl hfound⟩
    · refine ⟨obs, rfl, Or.inr (ih (hT.trans hS) hready' ?_ hgrown')⟩
      rw [hnext]
      unfold scanWindowBlocks scanWindows at hn ⊢
      omega
    · exact absurd hready.anchored haway

/-- **From any cursor behind the event**, a bounded number of served calls finds it. -/
theorem findsWithin (h : Lands op b below tx) (hb : b :: below <:+ w.safe) (hvalid : validCursor op cursor)
    (hclean : Clean op cursor) : ∃ n, FindsWithin op tx.hash n w cursor := by
  have henough : ∀ next, Chain.height op.startBlock ≤ next → below.length <
      next + scanWindowBlocks * scanWindows * (below.length + 1) := by
    intro next hnext
    unfold scanWindowBlocks scanWindows
    omega
  refine ⟨below.length + 2, ?_⟩
  intro w' r w'' hgrown hobserves
  rcases served_call h hb hvalid hclean hgrown hobserves with
    ⟨obs, rfl, hfound | ⟨S, hS, hgrown', hready, hnext⟩ | ⟨hinitial, hgrown', -⟩⟩
  · exact ⟨obs, rfl, Or.inl hfound⟩
  · refine ⟨obs, rfl, Or.inr (findsWithin_ready h (hb.trans hS) hready (henough _ ?_) hgrown')⟩
    exact hready.valid.1 ▸ hready.valid.2.1
  · refine ⟨obs, rfl, Or.inr ?_⟩
    have hready : Ready op w.safe obs.cursor := by
      rw [hinitial]
      exact ⟨valid_initial, clean_initial, fun _ h => nomatch h⟩
    refine findsWithin_ready h hb hready (henough _ ?_) hgrown'
    exact hready.valid.1 ▸ hready.valid.2.1

/-! ## Runs of calls -/

/-- The network grows, or an observation is made from the cursor the last one returned. -/
inductive GaslessStep (op : GaslessEffect) (meets : (q : GaslessRequest) → q.Answer → Prop) :
    World op × GaslessCursor → Option GaslessObservation → World op × GaslessCursor → Prop
  | grows {w w' : World op} {cursor : GaslessCursor} : w.safe <:+ w'.safe →
      GaslessStep op meets (w, cursor) none (w', cursor)
  | observes {w w' : World op} {cursor : GaslessCursor} {obs : GaslessObservation} :
      Observes op meets w cursor (.ok obs) w' → GaslessStep op meets (w, cursor) (some obs) (w', obs.cursor)

theorem observed_call {event : GaslessChain} {r : GaslessResult GaslessObservation}
    (hvalid : validCursor op cursor) (hclean : Clean op cursor) (hw : event <:+ w.safe)
    (hobserves : Observes op (Meets op) w cursor r w') : ∀ obs, r = .ok obs → Observed op event obs := by
  have hends := (does_observe hvalid hclean).ends trivial hw hobserves
  rintro obs rfl
  exact hends

theorem clean_of_run {w₀ : World op} {labels : List (Option GaslessObservation)}
    (hrun : Runs.Run (GaslessStep op (Meets op)) (w₀, initialCursor op.startBlock) labels (w, cursor)) :
    validCursor op cursor ∧ Clean op cursor := by
  apply Runs.Run.invariant (I := fun s => validCursor op s.2 ∧ Clean op s.2) hrun
  · exact ⟨valid_initial, clean_initial⟩
  · rintro s label t ⟨hvalid, hclean⟩ hstep
    cases hstep with
    | grows _ => exact ⟨hvalid, hclean⟩
    | observes hobserves =>
      have hobserved := observed_call hvalid hclean List.nil_suffix hobserves _ rfl
      exact ⟨hobserved.valid, hobserved.clean⟩

/-- **No hint hides an operation that landed**, in runs of calls whose hints move the cursor past no event: what each
further call returns has the operation in front of its cursor, calls it invalidated only where it did not land at or
below the safe head, and where it did, a bounded number of calls without a hint finds it. -/
theorem no_hint_hides {w₀ : World op} {labels : List (Option GaslessObservation)}
    (hrun : Runs.Run (GaslessStep op (Meets op)) (w₀, initialCursor op.startBlock) labels (w, cursor)) :
    (∀ obs w', Observes op (Meets op) w cursor (.ok obs) w' →
      validCursor op obs.cursor ∧ Clean op obs.cursor ∧
        ∀ event, Landed op event → event <:+ w.safe → obs.status ≠ .permissionsInvalidated) ∧
      ∀ b below tx, Lands op b below tx → b :: below <:+ w.safe → ∃ n, FindsWithin op tx.hash n w cursor := by
  rcases clean_of_run hrun with ⟨hvalid, hclean⟩
  refine ⟨?_, fun b below tx hlands hb => findsWithin hlands hb hvalid hclean⟩
  intro obs w' hobserves
  have hobserved := observed_call hvalid hclean List.nil_suffix hobserves obs rfl
  refine ⟨hobserved.valid, hobserved.clean, ?_⟩
  intro event hlanded hsafe
  exact (observed_call hvalid hclean hsafe hobserves obs rfl).landed hlanded

namespace HintRuns

def event : GaslessLog := ⟨"0xe0", [userOperationEvent, "0x51", "0xa1", "0xb1"], 128⟩

def start : GaslessChain := [⟨0, [], 0⟩]

def operation : GaslessEffect := ⟨"0xe0", "0xa1", "0xb1", "0x51", start, fun _ => true⟩

def landing : GaslessTransaction := ⟨"0x71", "0xc1", "0xe0", 0, 4, true, [event]⟩

/-- Another EntryPoint transaction, that reverted. -/
def reverted : GaslessTransaction := ⟨"0x72", "0xc2", "0xe0", 0, 4, false, []⟩

/-- The operation landed in block 1; the reverted transaction is in block 2, or there is none. -/
def safe (above : List GaslessTransaction) : GaslessChain := [⟨2, above, 0⟩, ⟨1, [landing], 0⟩, ⟨0, [], 0⟩]

theorem proper_safe {above : List GaslessTransaction} (habove : above = [] ∨ above = [reverted]) :
    Proper operation (safe above) := by
  rcases habove with rfl | rfl
  · exact ⟨by decide, by decide, by decide⟩
  · exact ⟨by decide, by decide, by decide⟩

def world (above : List GaslessTransaction) (habove : above = [] ∨ above = [reverted]) : World operation :=
  ⟨safe above, safe above, List.suffix_refl _, List.cons_ne_nil _ _, proper_safe habove⟩

def lookup (chain : GaslessChain) (hash : String) : GaslessResult GaslessLookup :=
  match chain with
  | [] => .ok .missing
  | b :: below =>
    match b.transactions.find? fun tx => tx.hash = hash with
    | some tx => .ok (.mined tx (b :: below))
    | none => lookup below hash

/-- Every read answers from the chain, the block headers where `heads` says so; the bundler names `hint`. -/
def play (heads : Bool) (hint : Option String) (w : World operation) : (q : GaslessRequest) → q.Answer × World operation
  | .bundler => ((.ok (some ⟨none, none, some hint, none⟩), .ok none), w)
  | .anchors none => (.ok (w.safe, none), w)
  | .anchors (some n) =>
    (match Chain.blockAt w.chain n with
      | none => .error "block"
      | some block => .ok (w.safe, some block), w)
  | .window stop rows =>
    (match Chain.blockAt w.chain stop with
      | none => .error "block"
      | some block => .ok (block, rows.map fun row => logsBetween operation row.1 row.2 w.chain), w)
  | .lookup hash => (lookup w.chain hash, w)
  | .headers _ number withParent =>
    (match heads, Chain.blockAt w.chain number, Chain.blockAt w.chain (number - 1) with
      | true, some block, some parent => .ok ⟨block, if withParent then some parent else none, w.safe, w.chain⟩
      | _, _, _ => .error "block", w)
  | .settle number =>
    (match Chain.blockAt w.chain number with
      | none => .error "block"
      | some block => .ok (.expected, block), w)
  | .probe => (.ok (), w)

theorem lookup_told {w : World operation} {hash : String} {chain : GaslessChain} (hchain : chain <:+ w.chain)
    (habove : ∀ tx ∈ Chain.included w.chain, tx.hash = hash → tx ∈ Chain.included chain) :
    Told (lookup chain hash) (lookupTold w hash) := by
  induction chain with
  | nil =>
    rintro answer ⟨⟩
    intro tx htx hhash
    cases habove tx htx hhash
  | cons b below ih =>
    intro answer hanswer
    rw [lookup] at hanswer
    cases hfind : b.transactions.find? fun tx => tx.hash = hash with
    | some tx =>
      rw [hfind] at hanswer
      cases hanswer
      have hhash := List.find?_some hfind
      exact ⟨of_decide_eq_true hhash, b, below, rfl, hchain, List.mem_of_find?_eq_some hfind⟩
    | none =>
      rw [hfind] at hanswer
      apply ih ((List.suffix_cons _ _).trans hchain) _ answer hanswer
      intro tx htx hhash
      have hin := habove tx htx hhash
      rw [Chain.included_cons] at hin
      rcases List.mem_append.mp hin with hhere | hbelow
      · have hnone := List.find?_eq_none.mp hfind tx (List.mem_reverse.mp hhere)
        exact absurd (decide_eq_true hhash) hnone
      · exact hbelow

theorem play_answers (heads : Bool) (hint : Option String) (w : World operation) (q : GaslessRequest) :
    (play heads hint w q).2 = w ∧ answers operation w q (play heads hint w q).1 := by
  cases q with
  | bundler => exact ⟨rfl, trivial⟩
  | probe => exact ⟨rfl, trivial⟩
  | anchors previous =>
    cases previous with
    | none => exact ⟨rfl, by rintro a ⟨⟩; exact ⟨rfl, rfl, rfl⟩⟩
    | some n =>
      refine ⟨rfl, ?_⟩
      intro answer hanswer
      simp only [play] at hanswer
      split at hanswer
      · cases hanswer
      · rename_i block hblock
        cases hanswer
        exact ⟨rfl, hblock.symm, rfl⟩
  | window stop rows =>
    refine ⟨rfl, ?_⟩
    intro answer hanswer
    simp only [play] at hanswer
    split at hanswer
    · cases hanswer
    · rename_i block hblock
      cases hanswer
      exact ⟨hblock, rfl⟩
  | lookup hash => exact ⟨rfl, lookup_told (List.suffix_refl _) fun _ htx _ => htx⟩
  | headers tx number withParent =>
    refine ⟨rfl, ?_⟩
    intro answer hanswer
    simp only [play] at hanswer
    split at hanswer
    · rename_i block parent hblock hparent
      cases hanswer
      refine ⟨hblock, rfl, rfl, ?_, ?_⟩
      · cases withParent <;> rfl
      · intro p hp
        cases withParent
        · cases hp
        · cases hp
          exact hparent
    · cases hanswer
  | settle number =>
    refine ⟨rfl, ?_⟩
    intro answer hanswer
    simp only [play] at hanswer
    split at hanswer
    · cases hanswer
    · rename_i block hblock
      cases hanswer
      exact hblock

theorem play_exec (heads : Bool) (hint : Option String) (w : World operation) (q : GaslessRequest) :
    exec operation w q (play heads hint w q).1 (play heads hint w q).2 := by
  rcases play_answers heads hint w q with ⟨hsame, hanswers⟩
  rw [hsame]
  exact ⟨List.suffix_refl _, hanswers⟩

/-- A call from a cursor, every read answered. -/
def call (heads : Bool) (hint : Option String) (w : World operation) (cursor : GaslessCursor) :
    GaslessResult GaslessObservation × World operation :=
  (observeGasless operation cursor).eval (play heads hint) w

theorem call_observes {meets : (q : GaslessRequest) → q.Answer → Prop} (heads : Bool) (hint : Option String)
    (w : World operation) (cursor : GaslessCursor)
    (hmeets : ∀ (w : World operation) q, meets q (play heads hint w q).1) :
    Observes operation meets w cursor (call heads hint w cursor).1 (call heads hint w cursor).2 := by
  have hexec : ∀ (w : World operation) q, (Solo.system ((exec operation).only fun _ => meets)).exec () w q
      (play heads hint w q).1 (play heads hint w q).2 := fun w q => ⟨hmeets w q, play_exec heads hint w q⟩
  exact System.ends_eval hexec _ _

theorem eval_world {α : Type} (heads : Bool) (hint : Option String) (x : GaslessProg α) (w : World operation) :
    (x.eval (play heads hint) w).2 = w := by
  induction x with
  | ret a => rfl
  | fail e => rfl
  | op q k ih =>
    show ((k _).eval _ (play heads hint w q).2).2 = w
    rw [(play_answers heads hint w q).1]
    exact ih _

theorem call_world (heads : Bool) (hint : Option String) (w : World operation) (cursor : GaslessCursor) :
    (call heads hint w cursor).2 = w := eval_world heads hint _ w

/-- What the call with the hint at the reverted transaction returns. -/
def hinted : GaslessObservation :=
  ⟨.unresolved, some "0x72", ⟨start, 2, some (⟨1, [landing], 0⟩ :: start)⟩, some "gasless_receipt_unresolved"⟩

/-- What a call with a hint at no transaction returns. -/
def pending : GaslessObservation := ⟨.pending, some "0x99", initialCursor start, none⟩

theorem lands_landing : Lands operation ⟨1, [landing], 0⟩ start landing :=
  ⟨by decide, by decide, ⟨rfl, rfl, by decide, by decide, by decide, by decide, by decide⟩, by decide, by decide⟩

theorem landing_safe (above : List GaslessTransaction) :
    (⟨1, [landing], 0⟩ :: start : GaslessChain) <:+ safe above :=
  List.suffix_cons _ _

end HintRuns

open HintRuns in
/-- A call with a hint at no transaction; every further call without a hint works towards the operation. -/
theorem no_hint_hides_pending : ∃ w₀ labels w cursor,
    Runs.Run (GaslessStep operation (Meets operation)) (w₀, initialCursor operation.startBlock) labels (w, cursor) ∧
      some pending ∈ labels ∧ ∃ n, FindsWithin operation "0x71" n w cursor := by
  have hmeets : ∀ (w : World operation) q, Meets operation q (play false (some "0x99") w q).1 := by
    intro w q
    cases q with
    | headers tx number withParent =>
      rintro answer ⟨⟩
    | bundler => trivial
    | anchors previous => trivial
    | window stop rows => trivial
    | lookup hash => trivial
    | settle number => trivial
    | probe => trivial
  let w := world [] (Or.inl rfl)
  have hcall := call_observes false (some "0x99") w (initialCursor operation.startBlock) hmeets
  have hanswer : (call false (some "0x99") w (initialCursor operation.startBlock)).1 = .ok pending := by
    decide +kernel
  rw [hanswer, call_world] at hcall
  have hrun := Runs.Run.single (GaslessStep.observes hcall)
  refine ⟨w, _, w, pending.cursor, hrun, List.mem_singleton_self _, ?_⟩
  exact (no_hint_hides hrun).2 _ _ landing lands_landing (landing_safe [])

open HintRuns in
/-- A hint at a transaction that reverted above the event, then a call without a hint. -/
theorem hint_above_invalidates : ∃ w₀ labels w cursor,
    Runs.Run (GaslessStep operation fun _ _ => True) (w₀, initialCursor operation.startBlock) labels (w, cursor) ∧
      ∃ obs w', Observes operation (fun _ _ => True) w cursor (.ok obs) w' ∧
        Lands operation ⟨1, [landing], 0⟩ start landing ∧ (⟨1, [landing], 0⟩ :: start : GaslessChain) <:+ w.safe ∧
          obs.status = .permissionsInvalidated := by
  let w := world [reverted] (Or.inr rfl)
  have hhint : Observes operation (fun _ _ => True) w _ _ _ :=
    call_observes true (some "0x72") w (initialCursor operation.startBlock) fun _ _ => trivial
  have hhinted : (call true (some "0x72") w (initialCursor operation.startBlock)).1 = .ok hinted := by
    decide +kernel
  rw [hhinted, call_world] at hhint
  have hscan : Observes operation (fun _ _ => True) w hinted.cursor _ _ :=
    call_observes true none w hinted.cursor fun _ _ => trivial
  have hinvalid : (call true none w hinted.cursor).1 =
      .ok ⟨.permissionsInvalidated, none, ⟨start, 3, some (safe [reverted])⟩,
        some "gasless_final_permissions_invalidated"⟩ := by
    decide +kernel
  rw [hinvalid, call_world] at hscan
  have hrun := Runs.Run.single (GaslessStep.observes hhint)
  exact ⟨w, _, w, hinted.cursor, hrun, _, _, hscan, lands_landing, landing_safe _, rfl⟩

end PaymentNode.Gasless
