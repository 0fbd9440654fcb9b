import ColivingSpec.ContentNode.WalletWriteLock

/-!
# Who holds and who releases the lock

As long as no sync of a primary fails before or at its acquire, a wallet's lock has at most
one holder and is released by its holder. Otherwise the `finally` of the failed sync deletes
the key another sync set, and a third sync gets in.
-/

namespace ColivingSpec

open Lib List

namespace WalletWriteLock

variable {n n' : Node}

/-! ### What a run keeps about itself -/

/-- The wallets still to be acquired, or released, and the ones acquired belong together. -/
def Stage.Tidy (sync : Sync) (acquired : List Wallet) : Stage → Prop
  | .starting => acquired = []
  | .acquiring wallets => acquired.reverse ++ wallets = sync.wallets
  | .working => acquired.reverse = sync.wallets
  | .releasing wallets => wallets.Nodup ∧ ∀ wallet ∈ wallets, wallet ∈ acquired
  | .ended => True

/-- Each lock has one holder, and its key is set; each run is in order. -/
structure Exclusive (n : Node) : Prop where
  locked : ∀ id r, n.runs id = some r → ∀ wallet ∈ r.acquired, (n.keys wallet).isSome
  unique : ∀ i j r s, n.runs i = some r → n.runs j = some s →
    ∀ wallet ∈ r.acquired, wallet ∈ s.acquired → i = j
  nodup : ∀ id r, n.runs id = some r → r.acquired.Nodup
  tidy : ∀ id r, n.runs id = some r → r.stage.Tidy r.sync r.acquired

/-- Nothing has begun. -/
theorem exclusive_idle (keys : Keys) : Exclusive ⟨keys, fun _ ↦ none⟩ where
  locked _ _ h := nomatch h
  unique _ _ _ _ h := nomatch h
  nodup _ _ h := nomatch h
  tidy _ _ h := nomatch h

/-- A run may go on, and the keys change, as long as the other runs keep their locks. -/
theorem Exclusive.setRun (hn : Exclusive n) {id : ℕ} {keys : Keys} {r' : Run}
    (hothers : ∀ j s, j ≠ id → n.runs j = some s → ∀ wallet ∈ s.acquired,
      (keys wallet).isSome ∧ wallet ∉ r'.acquired)
    (hlocked : ∀ wallet ∈ r'.acquired, (keys wallet).isSome) (hnodup : r'.acquired.Nodup)
    (htidy : r'.stage.Tidy r'.sync r'.acquired) :
    Exclusive ({ n with keys }.setRun id r') := by
  have hruns : ∀ j s, ({ n with keys }.setRun id r').runs j = some s →
      j = id ∧ s = r' ∨ j ≠ id ∧ n.runs j = some s := by
    intro j s h
    by_cases hj : j = id
    · subst hj
      exact .inl ⟨rfl, by simpa [Node.setRun, eq_comm] using h⟩
    · exact .inr ⟨hj, by simpa [Node.setRun, hj] using h⟩
  constructor
  · intro j s h wallet hw
    rcases hruns j s h with ⟨-, rfl⟩ | ⟨hj, hs⟩
    · exact hlocked wallet hw
    · exact (hothers j s hj hs wallet hw).1
  · intro i j r s hr hs wallet hw hw'
    rcases hruns i r hr with ⟨hi, heq⟩ | ⟨hi, hri⟩
    · rcases hruns j s hs with ⟨hj, -⟩ | ⟨hj, hsj⟩
      · rw [hi, hj]
      · exact absurd (heq ▸ hw) (hothers j s hj hsj wallet hw').2
    · rcases hruns j s hs with ⟨-, heq⟩ | ⟨-, hsj⟩
      · exact absurd (heq ▸ hw') (hothers i r hi hri wallet hw).2
      · exact hn.unique i j r s hri hsj wallet hw hw'
  · intro j s h
    rcases hruns j s h with ⟨-, rfl⟩ | ⟨-, hs⟩
    · exact hnodup
    · exact hn.nodup j s hs
  · intro j s h
    rcases hruns j s h with ⟨-, rfl⟩ | ⟨-, hs⟩
    · exact htidy
    · exact hn.tidy j s hs

/-- A run that acquires and releases nothing. -/
theorem Exclusive.setStage (hn : Exclusive n) {id : ℕ} {r : Run} (hr : n.runs id = some r)
    {stage : Stage} (htidy : stage.Tidy r.sync r.acquired) :
    Exclusive (n.setRun id ⟨r.sync, stage, r.acquired⟩) := by
  apply hn.setRun
  · intro j s hj hs wallet hw
    exact ⟨hn.locked j s hs wallet hw, fun hw' ↦ hj (hn.unique j id s r hs hr wallet hw hw')⟩
  · exact hn.locked id r hr
  · exact hn.nodup id r hr
  · exact htidy

/-! ### One event -/

/-- The event is not the failure of a primary's sync before or at its acquire: the libraries
come up, and the lock is reachable and free. -/
def Unhindered (n : Node) : Event → Prop
  | .initColivingLibs _ answers => answers = true
  | .acquire id answers => ∀ wallet stage acquired,
    n.runs id = some ⟨.primarySyncFromSecondary wallet, stage, acquired⟩ →
      answers = true ∧ n.keys wallet = none
  | _ => True

/-- A release is of a lock the call acquired and still holds. -/
def ReleasesOwn (n : Node) : Event → Prop
  | .release id _ => ∀ sync wallet rest acquired,
    n.runs id = some ⟨sync, .releasing (wallet :: rest), acquired⟩ → wallet ∈ acquired
  | _ => True

theorem Exclusive.acquireNext (hn : Exclusive n) {id : ℕ} {sync : Sync} {acquired : List Wallet}
    {answers : Bool} {wallets : List Wallet}
    (hr : n.runs id = some ⟨sync, .acquiring wallets, acquired⟩)
    (hfree : Unhindered n (.acquire id answers)) :
    Exclusive (n.acquireNext id sync acquired answers wallets) := by
  have htidy : acquired.reverse ++ wallets = sync.wallets := hn.tidy id _ hr
  -- A failed acquire is one of the sync that then releases nothing.
  have hfailed : (answers = false ∨ ∃ wallet ∈ wallets, (n.keys wallet).isSome) →
      Exclusive (n.setRun id ⟨sync, sync.afterFailedAcquire, acquired⟩) := by
    intro hbad
    cases sync with
    | secondarySyncFromPrimary walletPublicKeys => exact hn.setStage hr trivial
    | primarySyncFromSecondary wallet =>
      obtain ⟨hanswers, hnone⟩ := hfree wallet _ _ hr
      rcases hbad with hbad | ⟨wallet', hmem, hsome⟩
      · rw [hanswers] at hbad
        cases hbad
      · have hmem' : wallet' ∈ [wallet] := by
          change acquired.reverse ++ wallets = [wallet] at htidy
          rw [← htidy]
          exact mem_append_right _ hmem
        rw [mem_singleton.mp hmem', hnone] at hsome
        cases hsome
  cases wallets with
  | nil =>
    apply hn.setStage hr
    show acquired.reverse = sync.wallets
    simpa using htidy
  | cons wallet rest =>
    cases answers with
    | false => exact hfailed (.inl rfl)
    | true =>
      cases hkey : n.keys wallet with
      | some holder =>
        simp only [Node.acquireNext, WalletWriteLock.acquire, hkey]
        exact hfailed (.inr ⟨wallet, mem_cons_self, by simp [hkey]⟩)
      | none =>
        simp only [Node.acquireNext, WalletWriteLock.acquire, hkey]
        have hkept : ∀ j s, n.runs j = some s → ∀ w ∈ s.acquired, w ≠ wallet := by
          rintro j s hs w hw rfl
          simpa [hkey] using hn.locked j s hs w hw
        have hset : ∀ j s, n.runs j = some s → ∀ w ∈ s.acquired,
            (Function.update n.keys wallet (some sync.acquirer) w).isSome := by
          intro j s hs w hw
          rw [Function.update_of_ne (hkept j s hs w hw)]
          exact hn.locked j s hs w hw
        apply hn.setRun
        · intro j s hj hs w hw
          refine ⟨hset j s hs w hw, fun hmem ↦ ?_⟩
          rcases mem_cons.mp hmem with heq | hmem
          · exact hkept j s hs w hw heq
          · exact hj (hn.unique j id s _ hs hr w hw hmem)
        · intro w hw
          rcases mem_cons.mp hw with rfl | hw
          · simp
          · exact hset id _ hr w hw
        · exact nodup_cons.mpr
            ⟨fun hmem ↦ hkept id _ hr wallet hmem rfl, hn.nodup id _ hr⟩
        · cases rest with
          | nil =>
            show (wallet :: acquired).reverse = sync.wallets
            simpa using htidy
          | cons next rest =>
            show (wallet :: acquired).reverse ++ next :: rest = sync.wallets
            simpa using htidy

theorem Exclusive.releaseNext (hn : Exclusive n) {id : ℕ} {sync : Sync} {acquired : List Wallet}
    {answers : Bool} {wallets : List Wallet}
    (hr : n.runs id = some ⟨sync, .releasing wallets, acquired⟩) :
    Exclusive (n.releaseNext id sync acquired answers wallets) := by
  obtain ⟨hnodup, hown⟩ : wallets.Nodup ∧ ∀ wallet ∈ wallets, wallet ∈ acquired :=
    hn.tidy id _ hr
  cases wallets with
  | nil => exact hn.setStage hr trivial
  | cons wallet rest =>
    obtain ⟨hnot, hnodup⟩ := nodup_cons.mp hnodup
    have hwallet : wallet ∈ acquired := hown wallet mem_cons_self
    have hrest : ∀ w ∈ rest, w ∈ acquired := fun w hw ↦ hown w (mem_cons_of_mem _ hw)
    have hnext : ∀ kept : List Wallet, (∀ w ∈ rest, w ∈ kept) →
        (if rest = [] then Stage.ended else .releasing rest).Tidy sync kept := by
      intro kept hkept
      split
      · trivial
      · exact ⟨hnodup, hkept⟩
    cases answers with
    | false =>
      exact hn.setStage hr (hnext acquired hrest)
    | true =>
      have hkept : ∀ w, w ≠ wallet → (n.keys w).isSome →
          (WalletWriteLock.release n.keys wallet w).isSome := by
        intro w hne hsome
        rwa [WalletWriteLock.release, Function.update_of_ne hne]
      apply hn.setRun
      · intro j s hj hs w hw
        have hother : w ∉ acquired := fun hmem ↦ hj (hn.unique j id s _ hs hr w hw hmem)
        have hne : w ≠ wallet := fun heq ↦ hother (heq ▸ hwallet)
        exact ⟨hkept w hne (hn.locked j s hs w hw), fun hmem ↦ hother (mem_filter.mp hmem).1⟩
      · intro w hw
        obtain ⟨hmem, hne⟩ := mem_filter.mp hw
        exact hkept w (by simpa using hne) (hn.locked id _ hr w hmem)
      · exact (hn.nodup id _ hr).filter _
      · apply hnext
        intro w hw
        have hne : w ≠ wallet := fun heq ↦ hnot (heq ▸ hw)
        exact mem_filter.mpr ⟨hrest w hw, by simpa using hne⟩

/-- Every event that is no failure of a primary's sync keeps the locks exclusive. -/
theorem step_exclusive {e : Event} (hn : Exclusive n) (hfree : Unhindered n e)
    (h : step n e = .ok n') : Exclusive n' := by
  cases e with
  | start id sync =>
    simp only [step] at h
    split at h
    · cases h
      apply hn.setRun
      · intro j s _ hs wallet hw
        exact ⟨hn.locked j s hs wallet hw, not_mem_nil⟩
      · intro wallet hw
        exact absurd hw not_mem_nil
      · exact nodup_nil
      · cases sync with
        | primarySyncFromSecondary wallet => rfl
        | secondarySyncFromPrimary walletPublicKeys => rfl
    · cases h
  | initColivingLibs id answers =>
    obtain rfl : answers = true := hfree
    simp only [step] at h
    split at h
    · next sync acquired hr =>
      cases h
      apply hn.setStage hr
      have hnone : acquired = [] := hn.tidy id _ hr
      rw [hnone]
      rfl
    · cases h
  | acquire id answers =>
    simp only [step] at h
    split at h
    · next hr =>
      cases h
      exact hn.acquireNext hr hfree
    · cases h
  | finish id =>
    simp only [step] at h
    split at h
    · next sync acquired hr =>
      cases h
      apply hn.setStage hr
      have hall : acquired.reverse = sync.wallets := hn.tidy id _ hr
      rw [← hall]
      exact ⟨pairwise_reverse.mpr ((hn.nodup id _ hr).imp Ne.symm),
        fun wallet hw ↦ mem_reverse.mp hw⟩
    · cases h
  | release id answers =>
    simp only [step] at h
    split at h
    · next hr =>
      cases h
      exact hn.releaseNext hr
    · cases h
  | write wallet =>
    simp only [step] at h
    split at h
    · cases h
    · cases h
      exact hn

/-- In such a state only holders release. -/
theorem Exclusive.releasesOwn (hn : Exclusive n) (e : Event) : ReleasesOwn n e := by
  cases e with
  | release id answers =>
    intro sync wallet rest acquired hr
    have htidy : (wallet :: rest).Nodup ∧ ∀ w ∈ wallet :: rest, w ∈ acquired := hn.tidy id _ hr
    exact htidy.2 wallet mem_cons_self
  | _ => trivial

/-! ### Runs -/

/-- In a run in which no sync of a primary fails before or at its acquire, every call releases
only what it holds, and a wallet's lock has at most one holder. -/
theorem lock_exclusive (keys : Keys) (es : List Event)
    (hfree : Along step Unhindered ⟨keys, fun _ ↦ none⟩ es) :
    Along step ReleasesOwn ⟨keys, fun _ ↦ none⟩ es ∧
      ∀ wallet i j, (replay step ⟨keys, fun _ ↦ none⟩ es).Holds i wallet →
        (replay step ⟨keys, fun _ ↦ none⟩ es).Holds j wallet → i = j := by
  have hstep : ∀ n e n', Exclusive n → Unhindered n e → step n e = .ok n' → Exclusive n' :=
    fun n e n' hn hfree h ↦ step_exclusive hn hfree h
  constructor
  · exact along_of_invariant hstep (fun n e hn _ ↦ hn.releasesOwn e) (exclusive_idle keys) hfree
  · rintro wallet i j ⟨r, hr, hw⟩ ⟨s, hs, hw'⟩
    have hn := replay_invariant Exclusive hstep (exclusive_idle keys) hfree
    exact hn.unique i j r s hr hs wallet hw hw'

/-- A secondary's sync that gets the lock, works, and gives the lock back. -/
theorem lock_exclusive_single :
    Along step ReleasesOwn Node.fresh [.start 0 (.secondarySyncFromPrimary ["w"]), .acquire 0 true,
        .write "w", .finish 0, .release 0 true] ∧
      ∀ wallet i j, (replay step Node.fresh [.start 0 (.secondarySyncFromPrimary ["w"]),
          .acquire 0 true, .write "w", .finish 0, .release 0 true]).Holds i wallet →
        (replay step Node.fresh [.start 0 (.secondarySyncFromPrimary ["w"]),
          .acquire 0 true, .write "w", .finish 0, .release 0 true]).Holds j wallet → i = j := by
  apply lock_exclusive
  refine ⟨trivial, ?_, trivial, trivial, trivial, trivial⟩
  intro wallet stage acquired h
  cases h

/-- Three syncs of a wallet: the second, of a primary, finds the lock held and deletes the key
of the first, and the third gets in beside the first. -/
theorem lock_not_exclusive :
    let es : List Event :=
      [.start 0 (.secondarySyncFromPrimary ["w"]), .acquire 0 true,
        .start 1 (.primarySyncFromSecondary "w"), .initColivingLibs 1 true, .acquire 1 true,
        .release 1 true, .start 2 (.secondarySyncFromPrimary ["w"]), .acquire 2 true]
    (replay step Node.fresh es).Holds 0 "w" ∧ (replay step Node.fresh es).Holds 2 "w" ∧
      ¬ Along step ReleasesOwn Node.fresh es := by
  refine ⟨⟨⟨.secondarySyncFromPrimary ["w"], .working, ["w"]⟩, rfl, List.mem_cons_self⟩,
    ⟨⟨.secondarySyncFromPrimary ["w"], .working, ["w"]⟩, rfl, List.mem_cons_self⟩, ?_⟩
  rintro ⟨-, -, -, -, -, hrelease, -⟩
  exact absurd (hrelease (.primarySyncFromSecondary "w") "w" [] [] rfl) List.not_mem_nil

end WalletWriteLock

end ColivingSpec
