import LibAtapp.Etcdcli.Watcher
import LibAtapp.Etcdcli.WatchStream

set_option autoImplicit false

/-! # The write callback of the watch request

`libcurl_callback_on_watch_write` as a whole: texts are cut out of a chunk one by one and each is
parsed, unpacked and handled before the next. The main result is that the chunks in which the body
arrives do not matter. -/

namespace LibAtapp

/-- An `etcd_watcher` that reads a watch stream. -/
abbrev WatchSession := WatchStream × EtcdWatcher

namespace EtcdWatcher

variable (codec : TextCodec) (fresh : WatchResponse)

/-- A complete text: it is handed to `parse_object` and, when it is an object, unpacked and
    handled. A failed assertion ends the process, with the effects so far. -/
def onText (self : EtcdWatcher) (valueJson : Bytes) : Except EtcdWatcher EtcdWatcher :=
  let self := { self with effects := self.effects ++ [.trunk valueJson] }
  match EtcdPacker.parseObject codec valueJson with
  | none => .ok self
  | some doc =>
    match EtcdPacker.unpackTrunk codec fresh doc with
    | none => .error self
    | some trunk => .ok (self.onTrunk trunk)

/-- `libcurl_callback_on_watch_write` on one chunk. -/
def onWatchWrite (session : WatchSession) (inbuf : Bytes) : Except EtcdWatcher WatchSession :=
  if inbuf.isEmpty then .ok session
  else
    match h : session.1.extractText inbuf with
    | (stream, none) => .ok (stream, session.2)
    | (stream, some (valueJson, rest)) => do
      have : rest.length < inbuf.length := WatchStream.length_of_extractText h
      let self ← onText codec fresh session.2 valueJson
      onWatchWrite (stream, self) rest
  termination_by inbuf.length

/-- A chunk that ends inside a text only changes the decoder. -/
theorem onWatchWrite_of_incomplete {session : WatchSession} {inbuf : Bytes} {stream : WatchStream}
    (hne : ¬ inbuf.isEmpty = true) (h : session.1.extractText inbuf = (stream, none)) :
    onWatchWrite codec fresh session inbuf = .ok (stream, session.2) := by
  rw [onWatchWrite, if_neg hne]
  split
  · next heq =>
    rw [h] at heq
    cases heq
    rfl
  · next heq =>
    rw [h] at heq
    cases heq

/-- A complete text is handled before the rest of the chunk is read. -/
theorem onWatchWrite_of_text {session : WatchSession} {inbuf valueJson rest : Bytes}
    {stream : WatchStream} (hne : ¬ inbuf.isEmpty = true)
    (h : session.1.extractText inbuf = (stream, some (valueJson, rest))) :
    onWatchWrite codec fresh session inbuf =
      (onText codec fresh session.2 valueJson).bind
        (fun self => onWatchWrite codec fresh (stream, self) rest) := by
  rw [onWatchWrite, if_neg hne]
  split
  · next heq =>
    rw [h] at heq
    cases heq
  · next heq =>
    rw [h] at heq
    cases heq
    rfl

/-- The write callback feeds the chunk to the reader of single bytes and handles its texts. -/
theorem onWatchWrite_eq_feed (session : WatchSession) (inbuf : Bytes) :
    onWatchWrite codec fresh session inbuf =
      Transducer.feed WatchStream.byteStep (onText codec fresh) session inbuf := by
  induction session, inbuf using onWatchWrite.induct with
  | case1 session inbuf h =>
      rw [List.isEmpty_iff] at h
      subst h
      rw [onWatchWrite]
      rfl
  | case2 session inbuf hne stream h =>
      rw [onWatchWrite_of_incomplete codec fresh hne h, Transducer.feed_eq_readItem,
        ← WatchStream.extractText_eq_readItem, h]
      rfl
  | case3 session inbuf hne stream valueJson rest h hlt ih =>
      rw [onWatchWrite_of_text codec fresh hne h, Transducer.feed_eq_readItem,
        ← WatchStream.extractText_eq_readItem, h, funext ih]
      rfl

/-- **The watch stream decoder is independent of chunking.** -/
theorem onWatchWrite_chunks (self : EtcdWatcher) (chunks : List Bytes) :
    chunks.foldlM (onWatchWrite codec fresh) ({}, self) =
      onWatchWrite codec fresh ({}, self) chunks.flatten := by
  have hfeed : onWatchWrite codec fresh =
      Transducer.feed WatchStream.byteStep (onText codec fresh) := by
    funext session inbuf
    exact onWatchWrite_eq_feed codec fresh session inbuf
  rw [hfeed]
  exact Transducer.foldlM_feed _ _ _ _

end EtcdWatcher

end LibAtapp
