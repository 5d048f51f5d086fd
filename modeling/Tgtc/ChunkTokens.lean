import Tgtc.ChunkedUpload
import Tgtc.Maps

/-!
The tokens of an upload. Its workers share the scheduler with the rest of the page: every call for a
token is with a worker until it has been rejected or its token has come back.
-/
namespace Tgtc.ChunkTokens
open ChunkedUpload UploadScheduler
open UploadErrors (Thrown)
open Maps (perm_replace)
open List (append_nil filterMap_append mem_append mem_append_left mem_cons mem_cons_of_mem mem_singleton not_mem_nil)
universe u v

def callOf : Stage → Option Nat
  | .waiting _ _ _ call | .sending _ _ _ call => some call
  | _ => none

def sendsBy : Stage → Option Nat
  | .sending _ _ _ call => some call
  | _ => none

theorem callOf_sendsBy {stage : Stage} {call : Nat} (sends : call ∈ sendsBy stage) : callOf stage = some call := by
  cases stage <;> simp_all [sendsBy,callOf]

structure Tokens {Signal : Type u} (scheduler : UploadScheduler.State Signal) (mine : List Nat) (workers : List Stage) : Prop where
  sound : Sound scheduler
  full : Full scheduler
  called : ∀ call ∈ mine,call < scheduler.calls
  separate : (workers.filterMap callOf).Nodup
  held : ∀ stage ∈ workers,∀ call ∈ callOf stage,call ∈ mine ∧ call ∉ releases scheduler.log
  given : ∀ stage ∈ workers,∀ call ∈ sendsBy stage,call ∈ grants scheduler.log
  spent : ∀ call ∈ mine,(∃ stage ∈ workers,call ∈ callOf stage) ∨
    call ∈ settled scheduler.log ∧ (call ∈ grants scheduler.log → call ∈ releases scheduler.log)

section
variable {Signal : Type u} {scheduler scheduler' : UploadScheduler.State Signal} {mine : List Nat} {workers workers' rest : List Stage}
  {old new : Stage}

theorem tokens_start (sound : Sound scheduler) (full : Full scheduler) : Tokens scheduler [] [] :=
  ⟨sound,full,nofun,List.nodup_nil,nofun,
    nofun,nofun⟩

theorem Tokens.perm (tokens : Tokens scheduler mine workers) (same : workers.Perm workers') : Tokens scheduler mine workers' where
  sound := tokens.sound
  full := tokens.full
  called := tokens.called
  separate := (same.filterMap callOf).nodup_iff.mp tokens.separate
  held stage member := tokens.held stage (same.mem_iff.mpr member)
  given stage member := tokens.given stage (same.mem_iff.mpr member)
  spent call member := (tokens.spent call member).imp_left fun ⟨stage,works,calls⟩ => ⟨stage,same.mem_iff.mp works,calls⟩

theorem grants_settled {log : List UploadScheduler.Event} {call : Nat} (granted : call ∈ grants log) : call ∈ settled log :=
  (grants_sublist log).subset granted

theorem Tokens.grow (tokens : Tokens scheduler mine workers) (sound : Sound scheduler') (full : Full scheduler')
    (grows : Grows scheduler scheduler') : Tokens scheduler' mine workers := by
  obtain ⟨more,log,none⟩ := grows.log
  have releases' : releases scheduler'.log = releases scheduler.log := by
    simp only [releases] at none ⊢
    rw [log,filterMap_append,none,append_nil]
  have grants' : grants scheduler'.log = grants scheduler.log ++ grants more := by rw [log]; exact filterMap_append
  have settled' : settled scheduler'.log = settled scheduler.log ++ settled more := by rw [log]; exact filterMap_append
  refine ⟨sound,full,fun call member => (tokens.called call member).trans_le grows.calls,tokens.separate,?_,?_,?_⟩
  · rw [releases']
    exact tokens.held
  · intro stage works call sends
    rw [grants']
    exact mem_append_left _ (tokens.given stage works call sends)
  · intro call member
    rw [releases',grants',settled']
    refine (tokens.spent call member).imp_right fun past => ⟨mem_append_left _ past.1,fun granted => ?_⟩
    rcases mem_append.mp granted with earlier | now
    · exact past.2 earlier
    · -- a call that has been settled is not granted again
      have once := sound.ledger.once
      rw [settled'] at once
      exact absurd rfl ((List.nodup_append.mp once).2.2 call past.1 call (grants_settled now))

section
variable (tokens : Tokens scheduler mine (old :: rest))
include tokens

theorem Tokens.tail : (rest.filterMap callOf).Nodup :=
  tokens.separate.sublist ((List.sublist_cons_self old rest).filterMap callOf)

theorem Tokens.idle (idle : callOf new = none)
    (rejected : ∀ call ∈ callOf old,call ∈ settled scheduler.log ∧ call ∉ grants scheduler.log) :
    Tokens scheduler mine (new :: rest) where
  sound := tokens.sound
  full := tokens.full
  called := tokens.called
  separate := by rw [List.filterMap_cons_none idle]; exact tokens.tail
  held stage member call calls := by
    rcases mem_cons.mp member with rfl | others
    · rw [idle] at calls; cases calls
    · exact tokens.held stage (mem_cons_of_mem _ others) call calls
  given stage member call sends := by
    rcases mem_cons.mp member with rfl | others
    · rw [callOf_sendsBy sends] at idle; cases idle
    · exact tokens.given stage (mem_cons_of_mem _ others) call sends
  spent call member := by
    rcases tokens.spent call member with ⟨stage,works,calls⟩ | spent
    · rcases mem_cons.mp works with rfl | others
      · obtain ⟨settled,granted⟩ := rejected call calls
        exact .inr ⟨settled,fun given => absurd given granted⟩
      · exact .inl ⟨stage,mem_cons_of_mem _ others,calls⟩
    · exact .inr spent

theorem Tokens.send (same : callOf new = callOf old)
    (granted : ∀ call ∈ sendsBy new,call ∈ grants scheduler.log) : Tokens scheduler mine (new :: rest) where
  sound := tokens.sound
  full := tokens.full
  called := tokens.called
  separate := by
    have before := tokens.separate
    rw [List.filterMap_cons,← same] at before
    exact before
  held stage member call calls := by
    rcases mem_cons.mp member with rfl | others
    · exact tokens.held old (by simp) call (same ▸ calls)
    · exact tokens.held stage (mem_cons_of_mem _ others) call calls
  given stage member call sends := by
    rcases mem_cons.mp member with rfl | others
    · exact granted call sends
    · exact tokens.given stage (mem_cons_of_mem _ others) call sends
  spent call member := by
    refine (tokens.spent call member).imp_left fun ⟨stage,works,calls⟩ => ?_
    rcases mem_cons.mp works with rfl | others
    · exact ⟨new,by simp,same ▸ calls⟩
    · exact ⟨stage,mem_cons_of_mem _ others,calls⟩

end

theorem Tokens.returns (tokens : Tokens scheduler mine workers) {call : Nat} (granted : call ∈ grants scheduler.log)
    (out : call ∉ releases scheduler.log) (separate : (workers'.filterMap callOf).Nodup)
    (kept : ∀ stage ∈ workers',stage ∈ workers ∧ callOf stage ≠ some call ∨ callOf stage = none)
    (left : ∀ stage ∈ workers,callOf stage ≠ none → callOf stage ≠ some call → stage ∈ workers') :
    Tokens (UploadScheduler.release scheduler call) mine workers' := by
  obtain ⟨sound,full⟩ := release_sound tokens.sound tokens.full ⟨granted,out⟩
  obtain ⟨more,log,none⟩ := (grows_release scheduler call).log
  have calls := (grows_release scheduler call).calls
  have releases' : releases (UploadScheduler.release scheduler call).log = releases scheduler.log ++ [call] := by
    simp only [releases] at none ⊢
    rw [log,filterMap_append,none,append_nil,filterMap_append]
    rfl
  have grants' : grants (UploadScheduler.release scheduler call).log = grants scheduler.log ++ grants more := by
    have before : grants (scheduler.log ++ [.released call]) = grants scheduler.log := by rw [grants_append]; exact append_nil _
    rw [log]
    exact filterMap_append.trans (congrArg (· ++ grants more) before)
  have settled' : settled (UploadScheduler.release scheduler call).log = settled scheduler.log ++ settled more := by
    have before : settled (scheduler.log ++ [.released call]) = settled scheduler.log := by rw [settled_append]; exact append_nil _
    rw [log]
    exact filterMap_append.trans (congrArg (· ++ settled more) before)
  refine ⟨sound,full,fun other member => (tokens.called other member).trans_le calls,separate,?_,?_,?_⟩
  · intro stage member other has
    rcases kept stage member with ⟨works,differs⟩ | idle
    · obtain ⟨known,still⟩ := tokens.held stage works other has
      refine ⟨known,fun back => ?_⟩
      rw [releases'] at back
      rcases mem_append.mp back with earlier | now
      · exact still earlier
      · cases mem_singleton.mp now
        exact differs has
    · rw [idle] at has; cases has
  · intro stage member other sends
    rw [grants']
    rcases kept stage member with ⟨works,_⟩ | idle
    · exact mem_append_left _ (tokens.given stage works other sends)
    · rw [callOf_sendsBy sends] at idle; cases idle
  · intro other member
    rw [releases',grants',settled']
    by_cases same : other = call
    · subst same
      exact .inr ⟨mem_append_left _ (grants_settled granted),fun _ => List.mem_append_right _ (by simp)⟩
    rcases tokens.spent other member with ⟨stage,works,has⟩ | ⟨before,back⟩
    · refine .inl ⟨stage,left stage works (by rw [has]; simp) ?_,has⟩
      rw [has]
      exact fun equal => same (Option.some.inj equal)
    · refine .inr ⟨mem_append_left _ before,fun given => ?_⟩
      rcases mem_append.mp given with earlier | now
      · exact mem_append_left _ (back earlier)
      · have once := sound.ledger.once
        rw [settled'] at once
        exact absurd rfl ((List.nodup_append.mp once).2.2 other before other (grants_settled now))

theorem Tokens.release (tokens : Tokens scheduler mine (old :: rest)) {call : Nat} (has : callOf old = some call)
    (granted : call ∈ grants scheduler.log) (idle : callOf new = none) :
    Tokens (UploadScheduler.release scheduler call) mine (new :: rest) := by
  have separate := tokens.separate
  rw [List.filterMap_cons_some has,List.nodup_cons] at separate
  apply tokens.returns granted (tokens.held old List.mem_cons_self call has).2
  · rw [List.filterMap_cons_none idle]
    exact separate.2
  · intro stage member
    rcases mem_cons.mp member with rfl | others
    · exact .inr idle
    · refine .inl ⟨mem_cons_of_mem _ others,fun same => ?_⟩
      exact separate.1 (List.mem_filterMap.mpr ⟨stage,others,same⟩)
  · intro stage member _ differs
    rcases mem_cons.mp member with rfl | others
    · exact absurd has differs
    · exact mem_cons_of_mem _ others

theorem Tokens.foreign (tokens : Tokens scheduler mine workers) {call : Nat} (other : call ∉ mine)
    (ok : call ∈ grants scheduler.log ∧ call ∉ releases scheduler.log) : Tokens (UploadScheduler.release scheduler call) mine workers :=
  tokens.returns ok.1 ok.2 tokens.separate
    (fun stage member => .inl ⟨member,fun has => other (tokens.held stage member call has).1⟩) fun _ member _ _ => member

variable [DecidableEq Signal]

theorem Tokens.acquire (tokens : Tokens scheduler mine (old :: rest)) (signal : Option Signal) (idle : callOf old = none)
    (calls : callOf new = some scheduler.calls) (waits : sendsBy new = none) :
    Tokens (UploadScheduler.acquire scheduler signal) (mine ++ [scheduler.calls]) (new :: rest) := by
  obtain ⟨grows,next⟩ := grows_acquire scheduler signal
  obtain ⟨sound,full⟩ := acquire_sound tokens.sound tokens.full signal
  have grown := tokens.grow sound full grows
  have fresh : scheduler.calls ∉ mine := fun member => Nat.lt_irrefl _ (tokens.called _ member)
  refine ⟨sound,full,?_,?_,?_,?_,?_⟩
  · intro call member
    rcases mem_append.mp member with earlier | now
    · exact grown.called call earlier
    · cases mem_singleton.mp now
      omega
  · rw [List.filterMap_cons_some calls,List.nodup_cons]
    refine ⟨fun member => ?_,tokens.tail⟩
    obtain ⟨stage,works,same⟩ := List.mem_filterMap.mp member
    exact fresh (tokens.held stage (mem_cons_of_mem _ works) _ same).1
  · intro stage member call has
    rcases mem_cons.mp member with rfl | others
    · rw [calls] at has
      cases has
      refine ⟨List.mem_append_right _ (by simp),fun back => ?_⟩
      obtain ⟨more,log,none⟩ := grows.log
      have releases' : releases (UploadScheduler.acquire scheduler signal).log = releases scheduler.log := by
        simp only [releases] at none ⊢
        rw [log,filterMap_append,none,append_nil]
      rw [releases'] at back
      exact Nat.lt_irrefl _ (tokens.sound.ledger.called _ (grants_settled (tokens.sound.counts.given _ back)))
    · obtain ⟨known,out⟩ := grown.held stage (mem_cons_of_mem _ others) call has
      exact ⟨mem_append_left _ known,out⟩
  · intro stage member call sends
    rcases mem_cons.mp member with rfl | others
    · rw [waits] at sends; cases sends
    · exact grown.given stage (mem_cons_of_mem _ others) call sends
  · intro call member
    rcases mem_append.mp member with earlier | now
    · rcases grown.spent call earlier with ⟨stage,works,has⟩ | spent
      · rcases mem_cons.mp works with rfl | others
        · rw [idle] at has; cases has
        · exact .inl ⟨stage,mem_cons_of_mem _ others,has⟩
      · exact .inr spent
    · cases mem_singleton.mp now
      exact .inl ⟨new,by simp,calls⟩

end

end Tgtc.ChunkTokens
