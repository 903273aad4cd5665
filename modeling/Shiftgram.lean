import Shiftgram.ConversationName
import Shiftgram.Runs
import Shiftgram.Feed
import Shiftgram.Isolation
import Shiftgram.FriendStore
import Shiftgram.Response
import Shiftgram.FriendSync
import Shiftgram.ImageTransfer
import Shiftgram.VoiceMessages
import Shiftgram.Utterances
import Shiftgram.Requests
import Shiftgram.ChatScreen
import Shiftgram.Composer
import Shiftgram.Overtaking
import Shiftgram.SendOrder
import Shiftgram.MenuCalls
import Shiftgram.Rings
import Shiftgram.DataManagers
import Shiftgram.LocalStore
import Shiftgram.App
import Shiftgram.Registration
import Shiftgram.Coverage
import Shiftgram.ContactSync
import Shiftgram.VideoRoom
import Shiftgram.LiveAudio
import Shiftgram.AudioCalls
import Shiftgram.CallUtterances
import Shiftgram.FriendRecords
import Shiftgram.Recording
import Shiftgram.RecordingView
import Shiftgram.VideoScreen
import Shiftgram.FailedSend
import Shiftgram.FailedSave
import Shiftgram.LoadingLock
import Shiftgram.PendingCall
import Shiftgram.ChatReader
import Shiftgram.ContactNumbers
import Shiftgram.RowPhotos
import Shiftgram.DialCode
import Shiftgram.NameOverflow
import Shiftgram.Nodes
import Shiftgram.CallTimer
import Shiftgram.Parts
import Shiftgram.TransferManager
import Shiftgram.Uploads
import Shiftgram.Resumption
import Shiftgram.PhotoUploads
import Shiftgram.TranslateRequest
import Shiftgram.Session
import Shiftgram.History
import Shiftgram.Downloads
import Shiftgram.DownloadRetries
import Shiftgram.ChunkedStream
import Shiftgram.CanonicalQuery
import Shiftgram.TaskChains
