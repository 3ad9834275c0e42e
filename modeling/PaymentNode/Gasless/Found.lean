import PaymentNode.Gasless.Observe

/-!
# Found — a landed operation stays in front of the cursor

`Clean` says that no block behind the cursor holds the operation's event, on the chain the cursor is anchored to.
The scan keeps it whatever the chain does above its safe head.  The inspection of a hinted transaction keeps it as
far as `Meets` holds: a transaction it anchors the cursor at without settling it lies below no block with the event.
-/

namespace PaymentNode.Gasless

open Solo

variable {op : GaslessEffect} {cursor : GaslessCursor} {S chain : GaslessChain} {w w' : World op}
  {tx : GaslessTransaction} {b b' : Chain.Block GaslessTransaction} {below below' : GaslessChain}

/-! ## Blocks and their events -/

/-- No block of the chain from the start on holds the event. -/
def Eventless (op : GaslessEffect) (chain : GaslessChain) : Prop :=
  ∀ b below, b :: below <:+ chain → Chain.height op.startBlock ≤ below.length → hasEvent op b = false

/-- No block behind the cursor holds the event. -/
def Clean (op : GaslessEffect) (cursor : GaslessCursor) : Prop :=
  ∀ previous, cursor.previousEndBlock = some previous → Eventless op previous

theorem clean_initial : Clean op (initialCursor op.startBlock) := by
  intro previous h
  cases h

theorem valid_initial : validCursor op (initialCursor op.startBlock) :=
  ⟨rfl, le_refl _, rfl⟩

-- Blocks of one chain of the same length are the same.
theorem suffix_eq {c d e : GaslessChain} (hc : c <:+ e) (hd : d <:+ e) (h : c.length = d.length) : c = d :=
  (Chain.suffix_of_length_le hc hd (le_of_eq h)).eq_of_length h

theorem logsBetween_nil {start stop : ℕ} (h : logsBetween op start stop chain = [])
    (hb : b :: below <:+ chain) (hstart : start ≤ below.length) (hstop : below.length ≤ stop) :
    hasEvent op b = false := by
  induction chain with
  | nil =>
    have hle := hb.length_le
    simp at hle
  | cons c rest ih =>
    rw [logsBetween, List.append_eq_nil_iff] at h
    rcases List.suffix_cons_iff.mp hb with heq | hrest
    · cases heq
      have hlogs := h.2
      rw [if_pos ⟨hstart, hstop⟩, List.flatMap_eq_nil_iff] at hlogs
      rw [hasEvent, List.any_eq_false]
      intro tx htx hany
      have hnone := hlogs tx htx
      rw [List.map_eq_nil_iff, List.filter_eq_nil_iff] at hnone
      rcases List.any_eq_true.mp hany with ⟨log, hlog, hevent⟩
      exact hnone log hlog hevent
    · exact ih h.1 hrest

theorem ranges_cover {start stop n : ℕ} (hstart : start ≤ n) (hstop : n ≤ stop) :
    ∃ range ∈ ranges start stop, range.1 ≤ n ∧ n ≤ range.2 := by
  have hdiv := Nat.div_add_mod (n - start) 10
  have hmod := Nat.mod_lt (n - start) (show 0 < 10 by decide)
  have hle : (n - start) / 10 ≤ (stop - start) / 10 := Nat.div_le_div_right (by omega)
  refine ⟨_, List.mem_map.mpr ⟨(n - start) / 10, ?_, rfl⟩, ?_, ?_⟩
  · rw [List.mem_range]
    show (n - start) / 10 < (stop - start) / 10 + 1
    omega
  · show start + 10 * ((n - start) / 10) ≤ n
    omega
  · show n ≤ min stop (start + 10 * ((n - start) / 10) + (10 - 1))
    omega

theorem scanLogs_nil {rows : List (ℕ × ℕ)} {values : List (List GaslessScanLog)}
    (h : scanLogs op rows values = .ok []) : ∀ value ∈ values, value = [] := by
  unfold scanLogs at h
  split at h
  · cases h
  split at h
  · cases h
  · split at h
    · cases h
    · have hdedup := Except.ok.inj h
      have hmap : values.flatten.map (·.transactionHash) = [] := by
        cases hlist : values.flatten.map (·.transactionHash) with
        | nil => rfl
        | cons x xs =>
          have hmem : x ∈ (values.flatten.map (·.transactionHash)).dedup := by
            rw [List.mem_dedup, hlist]
            exact List.mem_cons_self
          rw [hdedup] at hmem
          cases hmem
      exact List.flatten_eq_nil_iff.mp (List.map_eq_nil_iff.mp hmap)

/-! ## Requests -/

/-- The specification of a program over steps that meet a condition. -/
abbrev Does (op : GaslessEffect) (meets : (q : GaslessRequest) → q.Answer → Prop) {α : Type}
    (P : World op → Prop) (x : GaslessProg α) (Q : α → World op → Prop) (E : String → World op → Prop) :
    Prop :=
  Triple (Exec.only (exec op) fun _ => meets) (fun _ => True) P x Q E

/-- A block that was at or below the safe head is at or below it. -/
def Grown (S : GaslessChain) (w : World op) : Prop := S <:+ w.safe

theorem Grown.on_chain (h : Grown S w) : S <:+ w.chain := List.IsSuffix.trans h w.suffix

variable {meets : (q : GaslessRequest) → q.Answer → Prop}

theorem does_request {α : Type} {q : GaslessRequest} {h : q.Answer = GaslessResult α} :
    Does op meets (Grown S) (Prog.run q h)
      (fun a w => (∃ v : World op, Grown S v ∧ answers op v q (h.symm ▸ .ok a) ∧
        meets q (h.symm ▸ .ok a)) ∧ Grown S w)
      (fun e w => meets q (h.symm ▸ .error e) ∧ Grown S w) := by
  apply Triple.run
  rintro s t answer - hgrown ⟨hmeets, hmoves, hanswers⟩
  refine ⟨trivial, ?_⟩
  have hnext : Grown S t := List.IsSuffix.trans hgrown hmoves
  have hthere : ∀ {X Y : Type} (h : X = Y) (x : X), x = h.symm ▸ (h ▸ x : Y) := by
    intro X Y h x
    cases h
    rfl
  rw [hthere h answer] at hmeets hanswers
  generalize (h ▸ answer : GaslessResult α) = r at hmeets hanswers
  cases r with
  | ok a => exact ⟨⟨t, hnext, hanswers, hmeets⟩, hnext⟩
  | error e => exact ⟨hmeets, hnext⟩

/-! ## Inspecting -/

def bearing (op : GaslessEffect) (tx : GaslessTransaction) : Bool := tx.logs.any (isEvent op)

theorem included_event (h : hasEvent op b) (hb : b :: below <:+ chain) :
    0 < ((Chain.included chain).filter (bearing op)).length := by
  rcases List.any_eq_true.mp h with ⟨tx, htx, hbearing⟩
  apply List.length_pos_of_mem (a := tx)
  rw [List.mem_filter]
  refine ⟨Chain.mem_included_of_suffix hb ?_, hbearing⟩
  rw [Chain.included_cons]
  exact List.mem_append_left _ (List.mem_reverse.mpr htx)

-- Below the event there is no other.
theorem Proper.apart (h : Proper op chain) (hb : b :: below <:+ chain) (hevent : hasEvent op b)
    (hb' : b' :: below' <:+ below) : hasEvent op b' = false := by
  by_contra hother
  rw [Bool.not_eq_false] at hother
  have hlow := included_event hother hb'
  rcases List.any_eq_true.mp hevent with ⟨tx, htx, hbearing⟩
  have hhigh : 0 < (b.transactions.reverse.filter (bearing op)).length := by
    apply List.length_pos_of_mem (a := tx)
    rw [List.mem_filter]
    exact ⟨List.mem_reverse.mpr htx, hbearing⟩
  have hsub := ((Chain.included_suffix hb).sublist.filter (bearing op)).length_le
  rw [Chain.included_cons, List.filter_append, List.length_append] at hsub
  have honce : ((Chain.included chain).filter (bearing op)).length ≤ 1 := h.once
  omega

/-- What the inspection demands of an outer transaction and of its block, whatever the receipt's status: the outer
identity, and the limits on what is read. -/
structure Outer (op : GaslessEffect) (b : Chain.Block GaslessTransaction) (tx : GaslessTransaction) : Prop where
  target : tx.target = op.entryPoint
  value : tx.value = 0
  sender : tx.sender ≠ op.owner
  block : b.transactions.length ≤ blockTransactionLimit
  input : tx.inputBytes ≤ inputLimit
  logs : tx.logs.length ≤ receiptLogLimit
  logData : ∀ log ∈ tx.logs, log.dataBytes ≤ logDataLimit

/-- A transaction whose inspection moves the cursor and settles nothing: it reverted, or is not safe yet. -/
def Unsettled (op : GaslessEffect) (tx : GaslessTransaction) (headers : GaslessHeaders) : Prop :=
  (∃ b below, headers.included = b :: below ∧ tx ∈ b.transactions ∧ Outer op b tx) ∧
    (tx.success = false ∨ Chain.height headers.safe < Chain.height headers.included)

/-- The condition: a hinted transaction that moves the cursor and settles nothing is included above no block with the
operation's event. -/
def Meets (op : GaslessEffect) : (q : GaslessRequest) → q.Answer → Prop
  | .headers tx _ _, answer => Told answer fun headers =>
      Unsettled op tx headers → ∀ parent, headers.parent = some parent → Eventless op parent
  | _, _ => True

/-- An observation that leaves the operation findable. -/
structure Kept (op : GaslessEffect) (obs : GaslessObservation) : Prop where
  valid : validCursor op obs.cursor
  clean : Clean op obs.cursor
  status : obs.status ≠ .permissionsInvalidated

/-- The headers of one view are an inclusion block and its parent. -/
structure Anchors (op : GaslessEffect) (w : World op) (number : ℕ) (headers : GaslessHeaders) : Prop where
  included : Chain.blockAt w.chain number = some headers.included
  asked : headers.parent.isSome = decide (number ≠ Chain.height op.startBlock)
  parent : ∀ parent, headers.parent = some parent → Chain.blockAt w.chain (number - 1) = some parent

theorem height_of_blockAt {number : ℕ} {block : GaslessChain} (h : Chain.blockAt chain number = some block) :
    Chain.height block = number := by
  have hlength := (Chain.blockAt_eq_some.mp h).2
  unfold Chain.height
  omega

theorem block_ne_nil {number : ℕ} {block : GaslessChain} (h : Chain.blockAt chain number = some block) :
    block ≠ [] := by
  have hlength := (Chain.blockAt_eq_some.mp h).2
  intro hnil
  rw [hnil] at hlength
  simp at hlength

theorem anchored_valid {number : ℕ} {headers : GaslessHeaders} (hvalid : validCursor op cursor)
    (hnumber : Chain.height op.startBlock ≤ number) (h : Anchors op w number headers) :
    validCursor op (anchored cursor headers) := by
  have hstart : cursor.startBlock = op.startBlock := hvalid.1
  unfold anchored
  cases hparent : headers.parent with
  | none =>
    rw [hstart]
    exact valid_initial
  | some parent =>
    have hasked := h.asked
    rw [hparent] at hasked
    have hne : number ≠ Chain.height op.startBlock := of_decide_eq_true hasked.symm
    have hheight := height_of_blockAt h.included
    have hbelow := height_of_blockAt (h.parent parent hparent)
    refine ⟨hstart, ?_, ?_, ?_, ?_⟩
    · show Chain.height cursor.startBlock ≤ Chain.height headers.included
      rw [hstart, hheight]
      exact hnumber
    · exact block_ne_nil (h.parent parent hparent)
    · show Chain.height cursor.startBlock ≤ Chain.height parent
      rw [hstart]
      omega
    · show Chain.height headers.included = Chain.height parent + 1
      omega

-- A transaction with the event is the only one: its block's ancestors hold none.
theorem parent_eventless {number : ℕ} {headers : GaslessHeaders} {parent : GaslessChain}
    (h : Anchors op w number headers) (hparent : headers.parent = some parent)
    (hblock : headers.included = b :: below) (htx : tx ∈ b.transactions) (hbearing : bearing op tx)
    (hnumber : number ≠ 0) : Eventless op parent := by
  rcases Chain.blockAt_eq_some.mp h.included with ⟨hincluded, hlength⟩
  rcases Chain.blockAt_eq_some.mp (h.parent parent hparent) with ⟨hsuffix, hparentLength⟩
  rw [hblock] at hincluded hlength
  have hbelow : below <:+ w.chain := (List.suffix_cons b below).trans hincluded
  have hsame : parent = below := by
    apply suffix_eq hsuffix hbelow
    simp only [List.length_cons] at hlength
    omega
  rw [hsame]
  intro b' below' hb' _
  exact w.proper.apart hincluded (List.any_eq_true.mpr ⟨tx, htx, hbearing⟩) hb'

theorem bearing_of_accounting (h : gaslessAccounting op tx) : bearing op tx := by
  simp only [gaslessAccounting, Bool.and_eq_true, decide_eq_true_eq] at h
  cases hlogs : tx.logs.filter (isEvent op) with
  | nil =>
    rw [hlogs] at h
    simp at h
  | cons log rest =>
    have hmem : log ∈ tx.logs.filter (isEvent op) := by
      rw [hlogs]
      exact List.mem_cons_self
    rcases List.mem_filter.mp hmem with ⟨hlog, hevent⟩
    exact List.any_eq_true.mpr ⟨log, hlog, hevent⟩

abbrev Anything {α : Type} : α → World op → Prop := fun _ _ => True

-- What follows a check that was passed.
theorem does_unless {α : Type} {P : World op → Prop} {c : Prop} [Decidable c] {reason : String} {x : GaslessProg α}
    {Q : α → World op → Prop} (h : ¬ c → Does op meets P x Q Anything) :
    Does op meets P ((refuse c reason).bind fun _ => x) Q Anything := by
  unfold refuse
  split
  · exact Triple.fail fun _ _ _ => trivial
  · exact h ‹_›

/-- **An inspection keeps the operation in front of the cursor.** -/
theorem does_inspect {transactionHash : String} (hvalid : validCursor op cursor) (hclean : Clean op cursor) :
    Does op (Meets op) (Grown S) (inspect op transactionHash cursor)
      (fun obs _ => Kept op obs ∧ obs.status ≠ .notFound) Anything := by
  have hstart : cursor.startBlock = op.startBlock := hvalid.1
  apply Triple.bind
    ((does_request (h := rfl)).conseq (fun _ _ h => h) (fun _ _ _ h => h) fun _ _ _ _ => trivial)
  intro found
  apply Triple.assume
  rintro ⟨v, -, hlookup, -⟩
  cases found with
  | missing => exact Triple.ret fun _ _ _ => ⟨⟨hvalid, hclean, fun h => nomatch h⟩, fun h => nomatch h⟩
  | unmined => exact Triple.fail fun _ _ _ => trivial
  | mined tx block =>
    rcases hlookup _ rfl with ⟨-, b, below, hblock, -, htx⟩
    apply does_unless
    intro hnumber
    rw [not_lt, hstart] at hnumber
    apply Triple.bind (does_request.conseq (fun _ _ h => h) (fun _ _ _ h => h) fun _ _ _ _ => trivial)
    intro headers
    apply Triple.assume
    rintro ⟨u, -, hheaders, hmeets⟩
    rcases hheaders _ rfl with ⟨hincluded, -, -, hasked, hparent⟩
    rw [hstart] at hasked
    have hanchors : Anchors op u (Chain.height block) headers := ⟨hincluded, hasked, hparent⟩
    have hanchored := anchored_valid hvalid hnumber hanchors
    apply does_unless
    intro hmember
    rw [not_or, not_not, not_lt] at hmember
    have hblock' : headers.included = b :: below := hmember.1.trans hblock
    apply does_unless
    intro hinput
    apply does_unless
    intro hidentity
    apply does_unless
    intro hcount
    apply does_unless
    intro hdata
    -- Where the transaction is not settled, the condition speaks of the parent the cursor is anchored to.
    have hunsettled : (tx.success = false ∨ Chain.height headers.safe < Chain.height block) →
        Clean op (anchored cursor headers) := by
      intro hcase previous hprevious
      have houter : Outer op b tx := by
        rw [not_or, not_or, not_not, not_not] at hidentity
        have hlarge := hmember.2
        rw [hblock'] at hlarge
        push Not at hdata
        exact ⟨hidentity.1, hidentity.2.1, hidentity.2.2, hlarge, not_lt.mp hinput, not_lt.mp hcount, hdata⟩
      apply hmeets _ rfl ⟨⟨b, below, hblock', htx, houter⟩, hmember.1.symm ▸ hcase⟩ previous
      unfold anchored at hprevious
      cases hsome : headers.parent with
      | none =>
        rw [hsome] at hprevious
        cases hprevious
      | some parent =>
        rw [hsome] at hprevious
        cases hprevious
        rfl
    -- Reverted, not yet safe or settled: each answer anchors the cursor below the block.
    apply Triple.ite
    · intro hreverted
      rw [Bool.not_eq_true] at hreverted
      exact Triple.ret fun _ _ _ =>
        ⟨⟨hanchored, hunsettled (Or.inl hreverted), fun h => nomatch h⟩, fun h => nomatch h⟩
    · intro _
      apply does_unless
      intro _
      apply Triple.ite
      · intro hunsafe
        exact Triple.ret fun _ _ _ =>
          ⟨⟨hanchored, hunsettled (Or.inr hunsafe), fun h => nomatch h⟩, fun h => nomatch h⟩
      · intro _
        apply does_unless
        intro haccounting
        rw [not_not] at haccounting
        apply Triple.bind
          (does_request.conseq (fun _ _ h => h) (fun _ _ _ h => h.2) fun _ _ _ _ => trivial)
        intro again
        apply does_unless
        intro _
        apply does_unless
        intro _
        apply Triple.ret
        intro _ _ _
        -- Settled: the ancestors of its block hold no event.
        refine ⟨⟨hanchored, ?_, fun h => nomatch h⟩, fun h => nomatch h⟩
        intro previous hprevious
        unfold anchored at hprevious
        cases hsome : headers.parent with
        | none =>
          rw [hsome] at hprevious
          cases hprevious
        | some parent =>
          rw [hsome] at hprevious
          cases hprevious
          have hne : Chain.height block ≠ Chain.height op.startBlock := by
            rw [hsome] at hasked
            exact of_decide_eq_true hasked.symm
          exact parent_eventless hanchors hsome hblock' htx
            (bearing_of_accounting haccounting) (by omega)

theorem does_inspectSafely {transactionHash : String} (hvalid : validCursor op cursor)
    (hclean : Clean op cursor) :
    Does op (Meets op) (Grown S) (inspectSafely op transactionHash cursor)
      (fun obs _ => Kept op obs ∧ obs.status ≠ .notFound) Anything := by
  apply Triple.handle (does_inspect hvalid hclean)
  intro _
  exact Triple.ret fun _ _ _ => ⟨⟨hvalid, hclean, fun h => nomatch h⟩, fun h => nomatch h⟩

/-! ## Scanning -/

/-- The cursor is anchored on the chain of `S`. -/
def OnChain (S : GaslessChain) (cursor : GaslessCursor) : Prop :=
  ∀ previous, cursor.previousEndBlock = some previous → previous <:+ S ∨ S <:+ previous

-- A window below the safe head without a log: the cursor moves past it.
theorem window_clean {stopBlock : GaslessChain} {values : List (List GaslessScanLog)}
    (hvalid : validCursor op cursor) (hclean : Clean op cursor) (hon : OnChain S cursor)
    (hgrown : Grown S w) (hnext : cursor.nextBlock ≤ Chain.height S) (hS : S ≠ [])
    {stop : ℕ} (hlow : cursor.nextBlock ≤ stop) (hhigh : stop ≤ Chain.height S)
    (hstop : Chain.blockAt w.chain stop = some stopBlock)
    (hvalues : values = (ranges cursor.nextBlock stop).map fun range =>
      logsBetween op range.1 range.2 w.chain)
    (hempty : ∀ value ∈ values, value = []) :
    validCursor op ⟨cursor.startBlock, stop + 1, some stopBlock⟩ ∧
      Clean op ⟨cursor.startBlock, stop + 1, some stopBlock⟩ ∧ stopBlock <:+ S := by
  have hlength : 0 < S.length := List.length_pos_of_ne_nil hS
  have hheight : Chain.height S = S.length - 1 := rfl
  have hsuffix : stopBlock <:+ S := Chain.blockAt_of_suffix hgrown.on_chain hstop (by omega)
  have hstopHeight := height_of_blockAt hstop
  refine ⟨⟨hvalid.1, ?_, block_ne_nil hstop, ?_, ?_⟩, ?_, hsuffix⟩
  · show Chain.height cursor.startBlock ≤ stop + 1
    have hstart := hvalid.2.1
    omega
  · rw [hstopHeight]
    exact le_trans hvalid.2.1 hlow
  · rw [hstopHeight]
  · intro previous hprevious
    cases hprevious
    intro b below hb hstart
    by_cases hpassed : below.length < cursor.nextBlock
    · -- Behind the old cursor: its anchor is on the same chain.
      have hcursor := hvalid.2.2
      cases hanchor : cursor.previousEndBlock with
      | none =>
        rw [hanchor] at hcursor
        have hsame : cursor.nextBlock = Chain.height cursor.startBlock := hcursor
        rw [hsame, hvalid.1] at hpassed
        omega
      | some anchor =>
        rw [hanchor] at hcursor
        have hanchorPos : 0 < anchor.length := List.length_pos_of_ne_nil hcursor.1
        have hanchorHeight : cursor.nextBlock = Chain.height anchor + 1 := hcursor.2.2
        have hanchorDef : Chain.height anchor = anchor.length - 1 := rfl
        have hanchorOn : anchor <:+ S := by
          rcases hon anchor hanchor with h | h
          · exact h
          · have hle := h.length_le
            omega
        apply hclean anchor hanchor b below _ hstart
        apply Chain.suffix_of_length_le (hb.trans hsuffix) hanchorOn
        simp only [List.length_cons]
        omega
    · have hbStop : below.length ≤ stop := by
        have hle := hb.length_le
        have hstopLength := (Chain.blockAt_eq_some.mp hstop).2
        simp only [List.length_cons] at hle
        omega
      rcases ranges_cover (not_lt.mp hpassed) hbStop with ⟨range, hrange, hfrom, hto⟩
      have hnil : logsBetween op range.1 range.2 w.chain = [] := by
        apply hempty
        rw [hvalues]
        exact List.mem_map.mpr ⟨range, hrange, rfl⟩
      exact logsBetween_nil hnil ((hb.trans hsuffix).trans hgrown.on_chain) hfrom hto

-- A window that is answered, or not.
theorem does_window {stop : ℕ} {rows : List (ℕ × ℕ)} :
    Does op meets (Grown S)
      (do
        let answer ← Prog.run (.window stop rows) rfl
        let candidates ← Prog.ofExcept (scanLogs op rows answer.2)
        return (answer.1, candidates) : GaslessProg (GaslessChain × List String))
      (fun found w => (∃ v : World op, ∃ values, Grown S v ∧ Chain.blockAt v.chain stop = some found.1 ∧
        values = (rows.map fun range => logsBetween op range.1 range.2 v.chain) ∧
        scanLogs op rows values = .ok found.2) ∧ Grown S w)
      fun _ => Grown S := by
  apply Triple.bind
    ((does_request (h := rfl)).conseq (fun _ _ h => h) (fun _ _ _ h => h) fun _ _ _ h => h.2)
  intro answer
  apply Triple.assume
  rintro ⟨v, hgrown, hanswer, -⟩
  rcases hanswer _ rfl with ⟨hblock, hvalues⟩
  apply Triple.bind (M := fun candidates w => scanLogs op rows answer.2 = .ok candidates ∧ Grown S w)
  · apply Triple.ofExcept
    · exact fun candidates w hok _ h => ⟨hok, h⟩
    · exact fun _ _ _ _ h => h
  · intro candidates
    apply Triple.assume
    intro hok
    exact Triple.ret fun _ _ h => ⟨⟨v, answer.2, hgrown, hblock, hvalues, hok⟩, h⟩

/-- What a scan leaves: an operation that is kept, and a safe head only where the cursor is anchored at it. -/
structure Scanned (op : GaslessEffect) (S : GaslessChain) (result : GaslessScan) : Prop where
  kept : Kept op result.1
  reached : ∀ head, result.2 = some head → head = S ∧ result.1.cursor.previousEndBlock = some S

theorem scanned_notFound (hvalid : validCursor op cursor) (hclean : Clean op cursor) :
    Scanned op S (notFound cursor S) := by
  refine ⟨⟨hvalid, hclean, fun h => nomatch h⟩, ?_⟩
  intro head hhead
  unfold notFound at hhead
  split at hhead
  · rename_i hreached
    cases hhead
    exact ⟨rfl, hreached.2⟩
  · cases hhead

theorem does_scanFrom (hS : S ≠ []) (n : ℕ) (hvalid : validCursor op cursor) (hclean : Clean op cursor)
    (hon : OnChain S cursor) :
    Does op (Meets op) (Grown S) (scanFrom op S n cursor) (fun result _ => Scanned op S result)
      Anything := by
  induction n generalizing cursor with
  | zero => exact Triple.ret fun _ _ _ => scanned_notFound hvalid hclean
  | succ n ih =>
    have hunresolved : Scanned op S (unresolved cursor none "gasless_receipt_unresolved", none) :=
      ⟨⟨hvalid, hclean, fun h => nomatch h⟩, fun _ h => nomatch h⟩
    apply Triple.ite
    · exact fun _ => Triple.ret fun _ _ _ => scanned_notFound hvalid hclean
    · intro hnext
      rw [not_lt] at hnext
      apply Triple.bind (Triple.attempt does_window)
      intro found
      cases found with
      | error e => exact Triple.ret fun _ _ _ => hunresolved
      | ok found =>
        apply Triple.assume
        rintro ⟨v, values, hgrown, hblock, hvalues, hok⟩
        rcases found with ⟨stopBlock, candidates⟩
        match candidates with
        | [] =>
          have hempty := scanLogs_nil hok
          rcases window_clean hvalid hclean hon hgrown hnext hS
            (show cursor.nextBlock ≤ min (Chain.height S) (cursor.nextBlock + scanWindowBlocks - 1) by
              unfold scanWindowBlocks
              omega) (min_le_left _ _) hblock hvalues hempty with ⟨hvalid', hclean', hsuffix⟩
          apply ih hvalid' hclean'
          intro previous hprevious
          cases hprevious
          exact Or.inl hsuffix
        | [candidate] =>
          apply Triple.bind (does_inspectSafely hvalid hclean)
          intro observation
          apply Triple.ret
          intro _ _ hkept
          exact ⟨hkept.1, fun _ h => nomatch h⟩
        | _ :: _ :: _ => exact Triple.ret fun _ _ _ => hunresolved

variable {event : GaslessChain}

-- The safe head that is read holds what was below one before, and stays.
theorem does_anchors {previous : Option ℕ} :
    Does op meets (Grown event) (Prog.run (.anchors previous) rfl)
      (fun (answer : GaslessChain × Option GaslessChain) w => (∃ v : World op, event <:+ v.safe ∧
        answer.1 = v.safe ∧ answer.2 = previous.bind (Chain.blockAt v.chain) ∧
        answer.2.isSome = previous.isSome) ∧ Grown answer.1 w)
      fun e w => meets (.anchors previous) (.error e) ∧ Grown event w := by
  apply Triple.run
  rintro s t answer - hgrown ⟨hmeets, hmoves, hanswers⟩
  refine ⟨trivial, ?_⟩
  have hnext : event <:+ t.safe := List.IsSuffix.trans hgrown hmoves
  change GaslessResult (GaslessChain × Option GaslessChain) at answer
  cases answer with
  | error e => exact ⟨hmeets, hnext⟩
  | ok a =>
    rcases hanswers a rfl with ⟨hsafe, hblock, hsome⟩
    refine ⟨⟨t, hnext, hsafe, hblock, hsome⟩, ?_⟩
    show a.1 <:+ t.safe
    rw [hsafe]

-- An anchor that is read back is on the chain of the safe head.
theorem anchor_on_chain {v : World op} {previous : Option GaslessChain} (hsafe : S = v.safe)
    (hblock : previous = (cursor.previousEndBlock.map Chain.height).bind (Chain.blockAt v.chain))
    (hsame : previous = cursor.previousEndBlock) : OnChain S cursor := by
  intro anchor hanchor
  rw [hsame, hanchor] at hblock
  have hat : Chain.blockAt v.chain (Chain.height anchor) = some anchor := hblock.symm
  have hsuffix := (Chain.blockAt_eq_some.mp hat).1
  rw [hsafe]
  exact List.suffix_or_suffix_of_suffix hsuffix v.suffix

theorem does_scan (event : GaslessChain) (hvalid : validCursor op cursor) (hclean : Clean op cursor) :
    Does op (Meets op) (Grown event) (scan op cursor)
      (fun result _ => ∃ S, event <:+ S ∧ Scanned op S result) Anything := by
  apply Triple.bind (Triple.attempt does_anchors)
  intro answer
  cases answer with
  | error e =>
    exact Triple.ret fun _ _ _ =>
      ⟨event, List.suffix_refl _, ⟨hvalid, hclean, fun h => nomatch h⟩, fun _ h => nomatch h⟩
  | ok answer =>
    apply Triple.assume
    rintro ⟨v, hevent, hsafe, hblock, -⟩
    apply Triple.ite
    · intro _
      apply Triple.ret
      intro _ _ _
      have hstart : initialCursor cursor.startBlock = initialCursor op.startBlock := by rw [hvalid.1]
      refine ⟨event, List.suffix_refl _, ⟨?_, ?_, fun h => nomatch h⟩, fun _ h => nomatch h⟩
      · show validCursor op (initialCursor cursor.startBlock)
        rw [hstart]
        exact valid_initial
      · show Clean op (initialCursor cursor.startBlock)
        rw [hstart]
        exact clean_initial
    · intro hsame
      rw [not_not] at hsame
      have hS : answer.1 ≠ [] := by
        rw [hsafe]
        exact v.genesis
      apply (does_scanFrom hS scanWindows hvalid hclean (anchor_on_chain hsafe hblock hsame)).conseq
        (fun _ _ h => h) _ fun _ _ _ h => h
      intro result _ _ hscanned
      refine ⟨answer.1, ?_, hscanned⟩
      rw [hsafe]
      exact hevent

/-! ## Observing -/

/-- A block with the event, from the start block on. -/
def Landed (op : GaslessEffect) (event : GaslessChain) : Prop :=
  ∃ b below, event = b :: below ∧ Chain.height op.startBlock ≤ below.length ∧ hasEvent op b

theorem Landed.not_eventless (h : Landed op event) (hsuffix : event <:+ S) :
    ¬ Eventless op S := by
  rcases h with ⟨b, below, rfl, hstart, hevent⟩
  intro heventless
  rw [heventless b below hsuffix hstart] at hevent
  cases hevent

theorem does_bootstrap :
    Does op meets (Grown event) (observeGaslessBootstrap cursor S) (fun obs _ => obs.cursor = cursor)
      Anything := by
  apply Triple.handle (F := Anything)
  · apply does_unless
    intro _
    apply Triple.bind
      ((does_request (h := rfl)).conseq (fun _ _ h => h) (fun _ _ _ h => h.2) fun _ _ _ _ => trivial)
    intro _
    exact Triple.ret fun _ _ _ => rfl
  · intro _
    exact Triple.ret fun _ _ _ => rfl

theorem does_candidate :
    Does op meets (Grown event) (bundlerCandidate op) (fun _ => Grown event) fun _ => Grown event := by
  apply Triple.bind (M := fun _ => Grown event)
  · apply Triple.perform
    rintro s a t - hgrown ⟨-, hmoves, -⟩
    exact ⟨trivial, List.IsSuffix.trans hgrown hmoves⟩
  · intro rows
    exact Triple.ret fun _ _ h => h

/-- What an observation leaves, of an operation whose event may be in the block `event`. -/
structure Observed (op : GaslessEffect) (event : GaslessChain) (obs : GaslessObservation) : Prop where
  valid : validCursor op obs.cursor
  clean : Clean op obs.cursor
  landed : Landed op event → obs.status ≠ .permissionsInvalidated

theorem Kept.observed {obs : GaslessObservation} (h : Kept op obs) :
    Observed op event obs :=
  ⟨h.valid, h.clean, fun _ => h.status⟩

/-- **One observation**: the operation stays in front of the cursor, and one that landed is never called
invalidated. -/
theorem does_observe (hvalid : validCursor op cursor) (hclean : Clean op cursor) :
    Does op (Meets op) (Grown event) (observeGasless op cursor) (fun obs _ => Observed op event obs)
      Anything := by
  apply does_unless
  intro _
  apply Triple.bind (does_candidate.conseq (fun _ _ h => h) (fun _ _ _ h => h) fun _ _ _ _ => trivial)
  intro candidate
  cases candidate with
  | some transactionHash =>
    exact (does_inspectSafely hvalid hclean).conseq (fun _ _ h => h) (fun _ _ _ h => h.1.observed)
      fun _ _ _ h => h
  | none =>
    apply Triple.bind (M := fun result w => (∃ S, event <:+ S ∧ Scanned op S result) ∧ Grown event w)
    · have hframe := Triple.frame (K := Grown event)
        (fun _ _ _ _ h hgrown => List.IsSuffix.trans hgrown h.2.1) (does_scan event hvalid hclean)
      exact hframe.conseq (fun _ _ h => ⟨h, h⟩) (fun _ _ _ h => h) fun _ _ _ _ => trivial
    · intro scanned
      apply Triple.assume
      rintro ⟨S, hevent, hscanned⟩
      have hkept : Does op (Meets op) (Grown event) (pure scanned.1 : GaslessProg GaslessObservation)
          (fun obs _ => Observed op event obs) Anything :=
        Triple.ret fun _ _ _ => hscanned.kept.observed
      split
      · rename_i head _ hhead
        apply Triple.bind does_bootstrap
        intro invalidation
        apply Triple.ret
        intro _ _ hcursor
        split
        · rcases hscanned.reached head hhead with ⟨rfl, hanchor⟩
          refine ⟨hcursor ▸ hscanned.kept.valid, hcursor ▸ hscanned.kept.clean, ?_⟩
          intro hlanded _
          exact hlanded.not_eventless hevent (hscanned.kept.clean _ hanchor)
        · exact hscanned.kept.observed
      · exact hkept

end PaymentNode.Gasless
