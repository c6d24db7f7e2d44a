/- The messages that the services put on each other's streams. The parameters stay
   the JSON text they travel as. -/
namespace Rpc

inductive RpcMethod where
  | Invite | ProxyHangup | ProxyHangupIntra | AnswerIntra | IntraSessoinProgress | Hangup | Cancel
  | RequestKeyframe | LocalSend | SetResponse | NewInboundChannel | NewIntra | RoomRpc
  | ConvertToRoom | SendReaction | ReInvite | Refer | NotifyDialog | NotifyReferSuccess
  | NotifyReferTrying | UpdateCallerid | NotifyVoicemail | NotifyAudioLevel
  | NotifyVideoAllocation | NotifyAvailableRate | Answer | Ack | StopSession | StopIce
  | UpdateSession | UpdateMediaDestinations | UpdateVideoSources | UpdateVideoDestinationLayer
  | MuteStream | UnmuteStream | SetSessionCrypto | SetSessionPeer | SetPeerAddr
  | SetSessionMediaMode | SetActiveSpeaker | SetT38Passthrough | ReinviteCrypto | PauseRecording
  | ResumeRecording | StartRecording | StreamStartSend | DtlsDone | StartVoicemail | RecordToRedis
  | StopRecordToRedis | StopRecordToFile | RecordToFile | UploadRecordToFile | PlayRingtone
  | StopRingtone | SetFax | InitT38 | PlaySound | StopSound | PlayMoh | StopMoh | SetRtpmap
  | SendDtmf | ReceiveDtmf | FinishCallRecording | PublishPark | OptionsMobileApp
  | SyncProvisioning | NotifyEvent
  deriving DecidableEq, Repr

structure RpcMessage where
  method : RpcMethod
  id : String
  params : String
  deriving DecidableEq, Repr

end Rpc
